/-
QueryWorkbench.Query.Fold — going through all levels of a query.

`map` changes what stands for the nested queries of an item or of a level. `Query.fold` applies
an operation on levels from the inside out, and `fold_mk` is its one equation: the result for a
query is the operation on its clauses, each nested query replaced by its own result.
-/
import QueryWorkbench.Query.Basic

namespace QueryWorkbench

variable {P Q : Type}

/-- Changes the nested query of a source. -/
def Source.map (f : P → Q) (s : Source P) : Source Q :=
  { table := s.table, aliasName := s.aliasName, schema := s.schema, subquery := s.subquery.map f }

/-- Changes the nested query of a field. -/
def Field.map (f : P → Q) (x : Field P) : Field Q :=
  { id := x.id, table := x.table, column := x.column, aliasName := x.aliasName, order := x.order,
    expression := x.expression, aggregate := x.aggregate, subquery := x.subquery.map f }

/-- Changes the nested query of a join. -/
def Join.map (f : P → Q) (j : Join P) : Join Q :=
  { id := j.id, kind := j.kind, sourceTable := j.sourceTable, sourceAlias := j.sourceAlias,
    sourceColumn := j.sourceColumn, targetTable := j.targetTable, targetAlias := j.targetAlias,
    targetColumn := j.targetColumn, condition := j.condition, edge := j.edge,
    subquery := j.subquery.map f, subqueryAlias := j.subqueryAlias }

/-- Changes the nested query of a condition. -/
def Condition.map (f : P → Q) (c : Condition P) : Condition Q :=
  { id := c.id, table := c.table, column := c.column, operator := c.operator, value := c.value,
    connective := c.connective, order := c.order, subquery := c.subquery.map f }

/-- Changes the query of a named query. -/
def Cte.map (f : P → Q) (c : Cte P) : Cte Q :=
  { id := c.id, name := c.name, query := f c.query, columns := c.columns, recursive := c.recursive }

/-- Changes the query of a union. -/
def Union.map (f : P → Q) (u : Union P) : Union Q :=
  { id := u.id, kind := u.kind, query := f u.query, order := u.order }

/-- Changes every nested query of a level. -/
def Clauses.map (f : P → Q) (c : Clauses P) : Clauses Q :=
  { source := c.source.map f, fields := c.fields.map (Field.map f),
    joins := c.joins.map (Join.map f),
    conditions := c.conditions.map (List.map (Condition.map f)), groupings := c.groupings,
    sortings := c.sortings, limit := c.limit, ctes := c.ctes.map (Cte.map f),
    unions := c.unions.map (Union.map f) }

theorem Clauses.getD_conditions_map (f : P → Q) (c : Clauses P) :
    (c.map f).conditions.getD [] = (c.conditions.getD []).map (Condition.map f) := by
  cases written : c.conditions <;> simp [Clauses.map, written]

namespace Query

variable {α : Type}

mutual

/-- Applies an operation on levels to a query and all queries nested in it. -/
def fold (f : Clauses α → α) : Query → α
  | .mk c => f (foldClauses f c)

/-- The level with each nested query replaced by its result. -/
def foldClauses (f : Clauses α → α) : Clauses Query → Clauses α
  | ⟨source, fields, joins, conditions, groupings, sortings, limit, ctes, unions⟩ =>
    ⟨foldSource f source, foldFields f fields, foldJoins f joins, foldConditions? f conditions,
      groupings, sortings, limit, foldCtes f ctes, foldUnions f unions⟩

/-- The source with its nested query replaced. -/
def foldSource (f : Clauses α → α) : Source Query → Source α
  | ⟨table, aliasName, schema, subquery⟩ => ⟨table, aliasName, schema, foldOption f subquery⟩

/-- An optional nested query replaced. -/
def foldOption (f : Clauses α → α) : Option Query → Option α
  | none => none
  | some q => some (fold f q)

/-- The fields with their nested queries replaced. -/
def foldFields (f : Clauses α → α) : List (Field Query) → List (Field α)
  | [] => []
  | x :: rest => foldField f x :: foldFields f rest

/-- A field with its nested query replaced. -/
def foldField (f : Clauses α → α) : Field Query → Field α
  | ⟨id, table, column, aliasName, order, expression, aggregate, subquery⟩ =>
    ⟨id, table, column, aliasName, order, expression, aggregate, foldOption f subquery⟩

/-- The joins with their nested queries replaced. -/
def foldJoins (f : Clauses α → α) : List (Join Query) → List (Join α)
  | [] => []
  | j :: rest => foldJoin f j :: foldJoins f rest

/-- A join with its nested query replaced. -/
def foldJoin (f : Clauses α → α) : Join Query → Join α
  | ⟨id, kind, st, sa, sc, tt, ta, tc, condition, edge, subquery, subqueryAlias⟩ =>
    ⟨id, kind, st, sa, sc, tt, ta, tc, condition, edge, foldOption f subquery, subqueryAlias⟩

/-- The conditions, if there are any, with their nested queries replaced. -/
def foldConditions? (f : Clauses α → α) : Option (List (Condition Query)) →
    Option (List (Condition α))
  | none => none
  | some cs => some (foldConditions f cs)

/-- The conditions with their nested queries replaced. -/
def foldConditions (f : Clauses α → α) : List (Condition Query) → List (Condition α)
  | [] => []
  | c :: rest => foldCondition f c :: foldConditions f rest

/-- A condition with its nested query replaced. -/
def foldCondition (f : Clauses α → α) : Condition Query → Condition α
  | ⟨id, table, column, operator, value, connective, order, subquery⟩ =>
    ⟨id, table, column, operator, value, connective, order, foldOption f subquery⟩

/-- The named queries replaced. -/
def foldCtes (f : Clauses α → α) : List (Cte Query) → List (Cte α)
  | [] => []
  | c :: rest => foldCte f c :: foldCtes f rest

/-- A named query replaced. -/
def foldCte (f : Clauses α → α) : Cte Query → Cte α
  | ⟨id, name, query, columns, recursive⟩ => ⟨id, name, fold f query, columns, recursive⟩

/-- The unions with their queries replaced. -/
def foldUnions (f : Clauses α → α) : List (Union Query) → List (Union α)
  | [] => []
  | u :: rest => foldUnion f u :: foldUnions f rest

/-- A union with its query replaced. -/
def foldUnion (f : Clauses α → α) : Union Query → Union α
  | ⟨id, kind, query, order⟩ => ⟨id, kind, fold f query, order⟩

end

variable (f : Clauses α → α)

theorem foldOption_eq (o : Option Query) : foldOption f o = o.map (fold f) := by
  cases o <;> simp [foldOption]

theorem foldFields_eq (l : List (Field Query)) : foldFields f l = l.map (Field.map (fold f)) := by
  induction l with
  | nil => simp [foldFields]
  | cons x rest ih => cases x; simp [foldFields, foldField, ih, foldOption_eq, Field.map]

theorem foldJoins_eq (l : List (Join Query)) : foldJoins f l = l.map (Join.map (fold f)) := by
  induction l with
  | nil => simp [foldJoins]
  | cons x rest ih => cases x; simp [foldJoins, foldJoin, ih, foldOption_eq, Join.map]

theorem foldConditions_eq (l : List (Condition Query)) :
    foldConditions f l = l.map (Condition.map (fold f)) := by
  induction l with
  | nil => simp [foldConditions]
  | cons x rest ih =>
    cases x; simp [foldConditions, foldCondition, ih, foldOption_eq, Condition.map]

theorem foldCtes_eq (l : List (Cte Query)) : foldCtes f l = l.map (Cte.map (fold f)) := by
  induction l with
  | nil => simp [foldCtes]
  | cons x rest ih => cases x; simp [foldCtes, foldCte, ih, Cte.map]

theorem foldUnions_eq (l : List (Union Query)) : foldUnions f l = l.map (Union.map (fold f)) := by
  induction l with
  | nil => simp [foldUnions]
  | cons x rest ih => cases x; simp [foldUnions, foldUnion, ih, Union.map]

theorem foldClauses_eq (c : Clauses Query) : foldClauses f c = c.map (fold f) := by
  obtain ⟨source, fields, joins, conditions, groupings, sortings, limit, ctes, unions⟩ := c
  obtain ⟨table, aliasName, schema, subquery⟩ := source
  cases conditions <;>
    simp [foldClauses, foldSource, foldConditions?, Clauses.map, Source.map, foldOption_eq,
      foldFields_eq, foldJoins_eq, foldConditions_eq, foldCtes_eq, foldUnions_eq]

/-- The result for a query is the operation on its clauses, each nested query replaced by its
own result. -/
theorem fold_mk (c : Clauses Query) : fold f (.mk c) = f (c.map (fold f)) := by
  rw [fold, foldClauses_eq]

end Query

end QueryWorkbench
