/-
QueryWorkbench.Draft.Basic — a query under construction, and what it is built against.

A draft is one level of clauses and the number that the next new item gets into its id. A
workbench is the schema graph, the depth of path searches and the dialect that drafts are edited
with.
-/
import QueryWorkbench.JoinPath.Search
import QueryWorkbench.Query.TableAlias
import QueryWorkbench.Schema.Graph
import QueryWorkbench.Sql.Generator

namespace QueryWorkbench

/-- What drafts are edited with. -/
structure Workbench where
  graph : SchemaGraph
  bestDepth : Nat
  dialect : Dialect

/-- A workbench for a graph. Without a dialect the one of the settings is taken. -/
def Workbench.make (env : Environment) (graph : SchemaGraph) (dialect : Option String) :
    Except Failure Workbench := do
  let limits ← ResolverSettings.read env
  let name ← match Sql.given dialect with
    | some name => pure name
    | none => (GeneratorSettings.read env).map (·.dialect)
  let d ← Dialect.ofName name
  .ok ⟨graph, limits.bestPathDepth, d⟩

/-- The shortest path between two tables within the depth of the workbench. -/
def Workbench.bestPath? (w : Workbench) (start goal : String) : Option JoinPath :=
  (JoinPath.search w.graph.edges start goal w.bestDepth).head?

/-- A query under construction. -/
structure Draft where
  clauses : Clauses Query := {}
  nextId : Nat := 1

namespace Draft

/-- The alias of every table in scope. -/
def tableAliases (d : Draft) : List (String × String) := d.clauses.tableAliases

/-- The tables in scope. -/
def tables (d : Draft) : List String := d.tableAliases.map (·.1)

/-- The alias of a table in scope, or the table itself. -/
def tableAlias (d : Draft) (table : String) : String := aliasOr d.tableAliases table

/-- A new alias for a table. -/
def freshAlias (d : Draft) (table : String) : String :=
  QueryWorkbench.freshAlias table (d.tableAliases.map (·.2))

/-- The first join that brings in a table. -/
def findJoin? (d : Draft) (table : String) : Option (Join Query) :=
  d.clauses.joins.find? (·.targetTable == table)

/-- The id of the next new item of a kind. -/
def newId (d : Draft) (stem : String) : String := stem ++ "-" ++ toString d.nextId

/-- A draft after an id was taken. -/
def advance (d : Draft) : Draft := { d with nextId := d.nextId + 1 }

/-- The SQL of a draft, empty as long as there is nothing to select from. -/
def sql (w : Workbench) (env : Environment) (d : Draft) (pretty : Option Bool) :
    Except Failure String :=
  if d.clauses.source.table = "" && d.clauses.source.subquery.isNone then .ok ""
  else do
    let g ← Sql.Generator.choose env (some w.dialect.name) pretty
    .ok (g.text (.mk d.clauses))

end Draft

end QueryWorkbench
