/-
QueryWorkbench.Schema.Graph — the tables and views of a schema and how they relate.

Nodes are tables and views with their columns, edges lead from a column of one to a column of
another. The direction of an edge says which column is where; for joining it does not matter.
-/

namespace QueryWorkbench

/-- What a node stands for. -/
inductive NodeKind where
  | table
  | view
deriving DecidableEq

namespace NodeKind

/-- The word for a kind of node. -/
def name : NodeKind → String
  | table => "table"
  | view => "view"

/-- Every kind of node. -/
def all : List NodeKind := [table, view]

end NodeKind

/-- A column of a table or view. -/
structure Column where
  name : String
  type : String := ""
  nullable : Bool := true
  isPrimaryKey : Bool := false
  isForeignKey : Bool := false
  defaultValue : Option String := none
  comment : Option String := none
deriving DecidableEq

/-- A table or view. -/
structure Node where
  id : String
  label : String
  kind : NodeKind := .table
  schema : Option String := none
  columns : List Column := []
deriving DecidableEq

/-- Whether a node has a column of this name. -/
def Node.hasColumn (n : Node) (column : String) : Bool := n.columns.any (·.name == column)

/-- A relationship between a column of one node and a column of another. -/
structure Edge where
  id : String
  source : String
  target : String
  sourceColumn : String
  targetColumn : String
  label : Option String := none
deriving DecidableEq

/-- Whether an edge joins two tables, in either direction. -/
def Edge.connects (e : Edge) (a b : String) : Bool :=
  (e.source == a && e.target == b) || (e.source == b && e.target == a)

/-- The nodes and edges of a schema. -/
structure SchemaGraph where
  nodes : List Node := []
  edges : List Edge := []
deriving DecidableEq

namespace SchemaGraph

/-- The first node with an id. -/
def node? (g : SchemaGraph) (id : String) : Option Node := g.nodes.find? (·.id == id)

/-- The ids of all nodes. -/
def nodeIds (g : SchemaGraph) : List String := g.nodes.map (·.id)

/-- Whether the node with an id has a column. -/
def hasColumn (g : SchemaGraph) (id column : String) : Bool :=
  (g.node? id).any (·.hasColumn column)

/-- Every edge between two tables, in either direction. -/
def edgesBetween (g : SchemaGraph) (a b : String) : List Edge :=
  g.edges.filter (·.connects a b)

end SchemaGraph

end QueryWorkbench
