/-
QueryWorkbench.Draft.Join — bringing tables into a draft.

A path is joined hop by hop with LEFT joins; a hop to a table that a join has brought in already
makes no join, and the next hop goes on from there. A single join follows the first edge between
the two tables, turned so that the source column belongs to the source.
-/
import QueryWorkbench.Draft.Basic
import QueryWorkbench.Outcome

namespace QueryWorkbench.Draft

/-- Adds a join at the end. -/
def pushJoin (d : Draft) (j : Join Query) : Draft :=
  { d with clauses := { d.clauses with joins := d.clauses.joins ++ [j] } }

/-- The join of one hop from a table with this alias. -/
def hopJoin (d : Draft) (source sourceAlias : String) (h : Hop) : Join Query :=
  { id := d.newId "join", kind := .left, sourceTable := source, sourceAlias := sourceAlias,
    sourceColumn := h.sourceColumn, targetTable := h.target,
    targetAlias := d.freshAlias h.target, targetColumn := h.targetColumn, edge := some h.edge }

/-- Joins the hops from a table on; the answer is the draft and the joins made. -/
def joinHops (source sourceAlias : String) : List Hop → Draft → Draft × List (Join Query)
  | [], d => (d, [])
  | h :: rest, d =>
    match d.findJoin? h.target with
    | some j => joinHops j.targetTable j.targetAlias rest d
    | none =>
      let j := d.hopJoin source sourceAlias h
      let (final, made) := joinHops j.targetTable j.targetAlias rest (d.advance.pushJoin j)
      (final, j :: made)

/-- Joins a path that starts at a table. -/
def joinPath (d : Draft) (source : String) (p : JoinPath) : Draft × List (Join Query) :=
  joinHops source (d.tableAlias source) p.hops d

/-- Brings the table of a new column into scope, by the best path from the base table. A table
that cannot be reached gives a warning. -/
def reach (w : Workbench) (d : Draft) (table : String) : Draft × List Warning :=
  let base := d.clauses.source.table
  if base = "" || d.tables.contains table then (d, [])
  else
    match w.bestPath? base table with
    | some p => ((d.joinPath base p).1, [])
    | none => (d, [.noJoinPath base table])

/-- Joins a table from another one, the base table when none is given. -/
def addJoin (w : Workbench) (d : Draft) (target : String) (source : Option String) :
    Draft × List (Join Query) × List Warning :=
  let source := (Sql.given source).getD d.clauses.source.table
  if source = "" || (d.findJoin? target).isSome then (d, [], [])
  else
    match w.graph.edgesBetween source target with
    | e :: _ =>
      let h := if e.source = source then e.forward else e.backward
      let j := d.hopJoin source (d.tableAlias source) h
      (d.advance.pushJoin j, [j], [])
    | [] =>
      match w.bestPath? source target with
      | some p =>
        let (final, made) := d.joinPath source p
        (final, made, [])
      | none => (d, [], [.noRelationship source target])

end QueryWorkbench.Draft
