/-
QueryWorkbench.Highlight.Selection — the part of a schema graph that an analysis is about.

With joins, the tables are all that match an end of a join, and the edges those that match a join
in its tables and, where known, its columns; if no edge does, every edge between the tables.
Without joins, the tables are those mentioned, narrowed to the ones that an edge connects when
there are several.
-/
import QueryWorkbench.Analysis.Report
import QueryWorkbench.Highlight.Matcher
import QueryWorkbench.Schema.Graph

namespace QueryWorkbench.Highlight

/-- Ids of tables and edges, ascending and once each. -/
structure Selection where
  tables : List String
  edges : List String
deriving DecidableEq

/-- Strings in ascending order of code points, once each. -/
def sortedOnce (items : List String) : List String :=
  items.eraseDups.mergeSort fun a b => decide (a ≤ b)

/-- Whether the tables of an edge match those of a join, in either direction. -/
def tablesAgree (e : Edge) (j : JoinedPair) : Bool :=
  (tablesMatch e.source j.source && tablesMatch e.target j.target)
    || (tablesMatch e.source j.target && tablesMatch e.target j.source)

/-- Whether the columns of an edge are two given ones, in either order and any case. -/
def columnsAgree (e : Edge) (a b : String) : Bool :=
  let columns := (Text.lower e.sourceColumn, Text.lower e.targetColumn)
  columns == (Text.lower a, Text.lower b) || columns == (Text.lower b, Text.lower a)

/-- Whether an edge matches a join. Without the columns of the join, its tables must be among
those mentioned. -/
def edgeMatches (mentioned : List String) (j : JoinedPair) (e : Edge) : Bool :=
  tablesAgree e j &&
    match j.sourceColumn.filter (· ≠ ""), j.targetColumn.filter (· ≠ "") with
    | some a, some b => columnsAgree e a b
    | _, _ => mentioned.contains e.source && mentioned.contains e.target

/-- The edges with both ends among some tables. -/
def edgesWithin (edges : List Edge) (tables : List String) : List Edge :=
  edges.filter fun e => tables.contains e.source && tables.contains e.target

/-- The part of a graph that an analysis is about. -/
def select (report : Report) (ids : List String) (edges : List Edge) : Selection :=
  let mentioned := (report.tables.filterMap (matchId? ids)).eraseDups
  if report.joins.isEmpty then
    let connected := (edgesWithin edges mentioned).flatMap fun e => [e.source, e.target]
    let tables := if mentioned.length = 1 || connected.isEmpty then mentioned else connected
    ⟨sortedOnce tables, sortedOnce ((edgesWithin edges tables).map (·.id))⟩
  else
    let tables := report.joins.flatMap fun j => related ids j.source ++ related ids j.target
    let matching := edges.filter fun e => report.joins.any fun j => edgeMatches mentioned j e
    let chosen := if matching.isEmpty then edgesWithin edges tables else matching
    ⟨sortedOnce tables, sortedOnce (chosen.map (·.id))⟩

end QueryWorkbench.Highlight
