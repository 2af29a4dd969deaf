/-
QueryWorkbench.Query.Writer — queries written as documents.

Every field is written, in the order of its type, under the spelling asked for; what is absent is
null. The writers of items and levels take the documents of the nested queries, so that
`Query.write` is one fold.
-/
import QueryWorkbench.Query.Fold
import QueryWorkbench.Query.Keys

namespace QueryWorkbench.Query

open Document (FieldName KeyStyle)

/-- An optional value, null when absent. -/
def orNull {α : Type} (write : α → Json) : Option α → Json
  | none => .null
  | some a => write a

/-- A clause that is an object around one list. -/
def writeClause (style : KeyStyle) (f : FieldName) (items : List Json) : Json :=
  .obj [(f.spelled style, .arr items)]

variable (style : KeyStyle)

/-- A source as a document. -/
def writeSource (s : Source Json) : Json := .obj [
  (Keys.table.spelled style, .str s.table),
  (Keys.aliasName.spelled style, .str s.aliasName),
  (Keys.schema.spelled style, .ofOption s.schema),
  (Keys.subquery.spelled style, s.subquery.getD .null)]

/-- An entry of the SELECT list as a document. -/
def writeField (x : Field Json) : Json := .obj [
  (Keys.id.spelled style, .str x.id),
  (Keys.tableId.spelled style, .str x.table),
  (Keys.column.spelled style, .str x.column),
  (Keys.aliasName.spelled style, .ofOption x.aliasName),
  (Keys.order.spelled style, .int x.order),
  (Keys.expression.spelled style, .ofOption x.expression),
  (Keys.aggregate.spelled style, .ofOption (x.aggregate.map Aggregate.name)),
  (Keys.subquery.spelled style, x.subquery.getD .null)]

/-- A join as a document. -/
def writeJoin (j : Join Json) : Json := .obj [
  (Keys.id.spelled style, .str j.id),
  (Keys.kind.spelled style, .str j.kind.name),
  (Keys.sourceTable.spelled style, .str j.sourceTable),
  (Keys.sourceAlias.spelled style, .str j.sourceAlias),
  (Keys.sourceColumn.spelled style, .str j.sourceColumn),
  (Keys.targetTable.spelled style, .str j.targetTable),
  (Keys.targetAlias.spelled style, .str j.targetAlias),
  (Keys.targetColumn.spelled style, .str j.targetColumn),
  (Keys.customCondition.spelled style, .ofOption j.condition),
  (Keys.edge.spelled style, .ofOption j.edge),
  (Keys.targetSubquery.spelled style, j.subquery.getD .null),
  (Keys.targetSubqueryAlias.spelled style, .ofOption j.subqueryAlias)]

/-- A condition as a document. -/
def writeCondition (c : Condition Json) : Json := .obj [
  (Keys.id.spelled style, .str c.id),
  (Keys.tableId.spelled style, .str c.table),
  (Keys.column.spelled style, .str c.column),
  (Keys.operator.spelled style, .str c.operator.name),
  (Keys.value.spelled style, c.value),
  (Keys.connective.spelled style, .ofOption (c.connective.map Connective.name)),
  (Keys.order.spelled style, .int c.order),
  (Keys.subquery.spelled style, c.subquery.getD .null)]

/-- An entry of GROUP BY as a document. -/
def writeGrouping (g : Grouping) : Json := .obj [
  (Keys.id.spelled style, .str g.id),
  (Keys.tableId.spelled style, .str g.table),
  (Keys.column.spelled style, .str g.column),
  (Keys.order.spelled style, .int g.order)]

/-- An entry of ORDER BY as a document. -/
def writeSorting (s : Sorting) : Json := .obj [
  (Keys.id.spelled style, .str s.id),
  (Keys.tableId.spelled style, .str s.table),
  (Keys.column.spelled style, .str s.column),
  (Keys.direction.spelled style, .str s.direction.name),
  (Keys.order.spelled style, .int s.order)]

/-- The row limit as a document. -/
def writeLimit (l : Limit) : Json := .obj [
  (Keys.limit.spelled style, .int l.count),
  (Keys.offset.spelled style, orNull (fun n : Nat => .int n) l.offset)]

/-- A named query as a document. -/
def writeCte (c : Cte Json) : Json := .obj [
  (Keys.id.spelled style, .str c.id),
  (Keys.name.spelled style, .str c.name),
  (Keys.query.spelled style, c.query),
  (Keys.columns.spelled style, orNull Json.ofStrings c.columns),
  (Keys.recursive.spelled style, .bool c.recursive)]

/-- A union as a document. -/
def writeUnion (u : Union Json) : Json := .obj [
  (Keys.id.spelled style, .str u.id),
  (Keys.kind.spelled style, .str u.kind.name),
  (Keys.query.spelled style, u.query),
  (Keys.order.spelled style, .int u.order)]

/-- All clauses of one level as a document. -/
def writeClauses (c : Clauses Json) : Json := .obj [
  (Keys.source.spelled style, writeSource style c.source),
  (Keys.select.spelled style, writeClause style Keys.fields (c.fields.map (writeField style))),
  (Keys.joins.spelled style, .arr (c.joins.map (writeJoin style))),
  (Keys.filter.spelled style, orNull
    (fun cs => writeClause style Keys.conditions (cs.map (writeCondition style))) c.conditions),
  (Keys.groupBy.spelled style, orNull
    (fun gs => writeClause style Keys.fields (gs.map (writeGrouping style))) c.groupings),
  (Keys.orderBy.spelled style, orNull
    (fun ss => writeClause style Keys.fields (ss.map (writeSorting style))) c.sortings),
  (Keys.limit.spelled style, orNull (writeLimit style) c.limit),
  (Keys.ctes.spelled style, .arr (c.ctes.map (writeCte style))),
  (Keys.unions.spelled style, .arr (c.unions.map (writeUnion style)))]

/-- A query of any depth as a document. -/
def write (q : Query) : Json := q.fold (writeClauses style)

end QueryWorkbench.Query
