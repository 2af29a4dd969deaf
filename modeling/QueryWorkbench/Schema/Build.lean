/-
QueryWorkbench.Schema.Build — schema graphs from catalogs.

Every table and view becomes a node and every column pair of a foreign key an edge. A view adds
edges to the tables that its definition joins: for each equality of a join condition, from the
view's column named like one of its sides to the table's column. Of edges with one id the first
is kept.
-/
import QueryWorkbench.Analysis.Report
import QueryWorkbench.Schema.Catalog
import QueryWorkbench.Schema.NodeName

namespace QueryWorkbench.Schema

/-- The node of a table. -/
def TableEntry.node (t : TableEntry) : Node :=
  ⟨nodeId t.name t.schema, t.name, .table, t.schema, t.columns⟩

/-- The id of a view. -/
def ViewEntry.id (v : ViewEntry) : String := nodeId v.name v.schema

/-- The node of a view. -/
def ViewEntry.node (v : ViewEntry) : Node := ⟨v.id, v.name, .view, v.schema, v.columns⟩

/-- The nodes of a catalog. -/
def Catalog.nodes (c : Catalog) : List Node :=
  c.tables.map TableEntry.node ++ c.views.map ViewEntry.node

/-- The last column with a name in small letters. -/
def columnNamed? (columns : List Column) (name : String) : Option String :=
  (columns.reverse.find? fun c => Text.lower c.name == Text.lower name).map (·.name)

/-- A column with the first of two names that is not empty and that a column has. -/
def columnOfEither? (columns : List Column) (first second : String) : Option String :=
  ((if first = "" then none else columnNamed? columns first).or
    (if second = "" then none else columnNamed? columns second))

/-- The edge of a view to a table, for one side of an equality: the table and the column there,
and the column on the other side. -/
def viewEdge? (view : ViewEntry) (tables : List Node) (table : String) (column other : String) :
    Option Edge := do
  let id ← resolve? (tables.map (·.id)) table
  guard (column ≠ "")
  let node ← tables.reverse.find? (·.id == id)
  let target ← columnNamed? node.columns column
  let source ← columnOfEither? view.columns other column
  some ⟨"view_" ++ view.id ++ "_to_" ++ id ++ "_" ++ source ++ "_" ++ target, view.id, id, source,
    target, some "view_join"⟩

/-- The edges with ids that are not in `seen`, the first of each id. -/
def firstById (seen : List String) : List Edge → List Edge
  | [] => []
  | e :: rest => if e.id ∈ seen then firstById seen rest else e :: firstById (e.id :: seen) rest

/-- The edges of a view whose definition joins these pairs. -/
def viewEdgesOf (view : ViewEntry) (tables : List Node) (joins : List JoinedPair) : List Edge :=
  firstById [] (joins.flatMap fun j =>
    let source := j.sourceColumn.getD ""
    let target := j.targetColumn.getD ""
    (viewEdge? view tables j.source source target).toList
      ++ (viewEdge? view tables j.target target source).toList)

/-- The edges of a view to the tables among some nodes. A view without columns or without a
definition has none, and its definition is not looked at. -/
def viewEdges (env : Environment) (view : ViewEntry) (nodes : List Node) : Outcome (List Edge) :=
  if (Text.trim view.definition.toList).isEmpty || view.columns.isEmpty then .ok []
  else do
    let limits ← Analysis.Limits.choose env none none none
    let report ← Analysis.analyzeValue limits (.str view.definition)
    pure (viewEdgesOf view (nodes.filter (·.kind = .table)) report.joins)

/-- The edge of a foreign key between the nodes with these ids, if both its tables are there. -/
def KeyEntry.edge? (ids : List String) (k : KeyEntry) : Option Edge := do
  let source ← resolve? ids k.source
  let target ← resolve? ids k.target
  some ⟨"fk_" ++ k.name ++ "_" ++ k.sourceColumn ++ "_" ++ k.targetColumn, source, target,
    k.sourceColumn, k.targetColumn, some k.name⟩

/-- The warnings about foreign keys with a table that is not there. -/
def keyWarnings (ids : List String) (keys : List KeyEntry) : List Warning :=
  (keys.filter fun k => (k.edge? ids).isNone).map fun k =>
    .unknownTables k.name k.source k.target

/-- The edges of all views, one view after the other. -/
def allViewEdges (env : Environment) (nodes : List Node) : List ViewEntry → Outcome (List Edge)
  | [] => .ok []
  | v :: rest => do
    let edges ← viewEdges env v nodes
    let more ← allViewEdges env nodes rest
    pure (edges ++ more)

/-- The schema graph of a catalog. -/
def build (env : Environment) (c : Catalog) : Outcome SchemaGraph := do
  let nodes := c.nodes
  let ids := nodes.map (·.id)
  Outcome.warn (keyWarnings ids c.keys)
  let ofViews ← allViewEdges env nodes c.views
  pure ⟨nodes, firstById [] (c.keys.filterMap (·.edge? ids) ++ ofViews)⟩

end QueryWorkbench.Schema
