/-
QueryWorkbench.JoinPath.Finder — questions about how the tables of a schema relate.

A finder holds a graph and two depth limits: one for the enumeration of paths, one for the choice
of the best. Limits can be given freely, so a search with a negative one fails.
-/
import QueryWorkbench.Assoc
import QueryWorkbench.JoinPath.Search
import QueryWorkbench.Settings
import QueryWorkbench.Text.Dotted

namespace QueryWorkbench

/-- A schema graph and the depth limits of searches in it. -/
structure PathFinder where
  graph : SchemaGraph
  maxDepth : Int
  bestDepth : Int

/-- Which end of an edge a suggested table is. -/
inductive EdgeEnd where
  | target
  | source
deriving DecidableEq

/-- The word for an end. -/
def EdgeEnd.name : EdgeEnd → String
  | target => "to"
  | source => "from"

/-- An edge between a suggested table and a table that is included already. -/
structure Relationship where
  edge : Edge
  outside : EdgeEnd
  included : String
deriving DecidableEq

/-- A table that could be added, with every edge that leads to it. -/
structure RelatedTable where
  table : String
  relationships : List Relationship
deriving DecidableEq

namespace PathFinder

/-- A finder with the limits of the settings where none are given. -/
def make (env : Environment) (graph : SchemaGraph) (maxDepth bestDepth : Option Int) :
    Except Failure PathFinder := do
  let settings ← ResolverSettings.read env
  .ok ⟨graph, maxDepth.getD settings.maxPathDepth, bestDepth.getD settings.bestPathDepth⟩

variable (f : PathFinder)

/-- All paths within a limit, or within the finder's own. -/
def allPaths (start goal : String) (limit : Option Int := none) :
    Except Failure (List JoinPath) :=
  let limit := limit.getD f.maxDepth
  if limit < 0 then .error (.negativeDepth limit)
  else .ok (JoinPath.search f.graph.edges start goal limit.toNat)

/-- With a limit that is not negative the paths are those of a search. -/
theorem allPaths_of_nonneg (start goal : String) {limit : Option Int}
    (within : 0 ≤ limit.getD f.maxDepth) :
    f.allPaths start goal limit =
      .ok (JoinPath.search f.graph.edges start goal (limit.getD f.maxDepth).toNat) :=
  if_neg (Int.not_lt.mpr within)

/-- The paths that the best one is chosen from. -/
def candidatePaths (start goal : String) : Except Failure (List JoinPath) :=
  f.allPaths start goal (some f.bestDepth)

/-- The shortest path, if there is one. -/
def bestPath (start goal : String) : Except Failure (Option JoinPath) :=
  (f.candidatePaths start goal).map List.head?

/-- The first edge between two tables. -/
def connectedEdge (a b : String) : Option Edge := (f.graph.edgesBetween a b).head?

/-- The tables that a level of a search adds to those already known. -/
def newNeighbours (edges : List Edge) (known level : List String) : List String :=
  ((level.flatMap (hopsFrom edges)).map (·.target)).eraseDups.filter (· ∉ known)

/-- The tables known after `more` further levels. -/
def spread (edges : List Edge) : (more : Nat) → (known level : List String) → List String
  | 0, known, _ => known
  | more + 1, known, level =>
    match newNeighbours edges known level with
    | [] => known
    | added => spread edges more (known ++ added) added

/-- Every table within a number of hops of a table, itself included. -/
def connectedTables (start : String) (limit : Int) : List String :=
  spread f.graph.edges limit.toNat [start] [start]

/-- The table that an edge offers beyond an included one, and how. -/
def offer (included : List String) (table : String) (e : Edge) : Option (String × EdgeEnd) :=
  if e.source = table && e.target ∉ included then some (e.target, .target)
  else if e.target = table && e.source ∉ included then some (e.source, .source)
  else none

/-- Every relationship that leads out of the included tables to a known one, with that table. -/
def offers (included : List String) : List (String × Relationship) :=
  included.flatMap fun table => f.graph.edges.filterMap fun e =>
    match offer included table e with
    | some (outside, side) =>
      if outside ∈ f.graph.nodeIds then some (outside, ⟨e, side, table⟩) else none
    | none => none

/-- Relationships gathered by table, in order of first mention. -/
def gather (found : List (String × Relationship)) : List (String × List Relationship) :=
  found.foldl (fun acc (table, r) => Assoc.put table ((Assoc.get? table acc).getD [] ++ [r]) acc) []

/-- The tables one hop away from the included ones. -/
def relatedTables (included : List String) : List RelatedTable :=
  (gather (f.offers included.eraseDups)).map fun (table, relationships) => ⟨table, relationships⟩

end PathFinder

end QueryWorkbench
