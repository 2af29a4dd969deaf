/-
QueryWorkbench.Schema.NodeName — ids of nodes, and names that refer to them.
-/
import QueryWorkbench.Text.Dotted

namespace QueryWorkbench.Schema

/-- The id of a table or view: its name, under its schema if it has one. -/
def nodeId (name : String) (schema : Option String) : String :=
  match schema.filter (· ≠ "") with
  | some s => s ++ "." ++ name
  | none => name

/-- Whether an id is a bare name, or ends with it after a dot. -/
def endsWithName (bare : String) (id : String) : Bool :=
  id == bare || ('.' :: bare.toList).isSuffixOf id.toList

/-- The id that a name refers to: the name itself if it is an id, or else the first id with the
same bare name. -/
def resolve? (ids : List String) (name : String) : Option String :=
  if name ∈ ids then some name else ids.find? (endsWithName (Text.bareName name))

end QueryWorkbench.Schema
