/-
QueryWorkbench.JoinPath.Basic — hops along edges and the paths they form.

Every edge can be walked from both ends. Walked against its direction, its tables and its columns
change places, so that a hop always says which column belongs to which table.
-/
import QueryWorkbench.Schema.Graph

namespace QueryWorkbench

/-- One step of a join path, in the direction of travel. -/
structure Hop where
  source : String
  target : String
  sourceColumn : String
  targetColumn : String
  edge : String
deriving DecidableEq

namespace Edge

/-- An edge walked as it is written. -/
def forward (e : Edge) : Hop := ⟨e.source, e.target, e.sourceColumn, e.targetColumn, e.id⟩

/-- An edge walked against its direction. -/
def backward (e : Edge) : Hop := ⟨e.target, e.source, e.targetColumn, e.sourceColumn, e.id⟩

/-- The hops that an edge offers from a table. -/
def hopsFrom (e : Edge) (table : String) : List Hop :=
  (if e.source = table then [e.forward] else []) ++ (if e.target = table then [e.backward] else [])

end Edge

/-- The hops from a table along all edges. -/
def hopsFrom (edges : List Edge) (table : String) : List Hop := edges.flatMap (·.hopsFrom table)

/-- A chain of hops from one table to another. -/
structure JoinPath where
  hops : List Hop
deriving DecidableEq

namespace JoinPath

/-- The number of hops. -/
def length (p : JoinPath) : Nat := p.hops.length

/-- The tables between the ends. -/
def intermediates (p : JoinPath) : List String := p.hops.dropLast.map (·.target)

/-- How many hops touch a table. -/
def touching (p : JoinPath) (table : String) : Nat :=
  p.hops.countP fun h => h.source == table || h.target == table

/-- A line about a path for a reader. -/
def description (p : JoinPath) : String :=
  match p.hops with
  | [h] => "Direct relationship via " ++ h.sourceColumn ++ " -> " ++ h.targetColumn
  | _ => "Path via " ++ toString p.intermediates.length ++ " table(s): "
      ++ " -> ".intercalate p.intermediates

end JoinPath

end QueryWorkbench
