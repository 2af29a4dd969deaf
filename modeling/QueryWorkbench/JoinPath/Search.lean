/-
QueryWorkbench.JoinPath.Search — paths between two tables, shortest first.

The search goes level by level. A level holds the trails of one length; those that have arrived
become paths, and of the others only the first trail at each table is carried on, by every hop to
a table that is not on it yet. A table can thus be passed again at another distance, so that
longer alternatives to a short path survive, and the work on a level is bounded by the graph.
-/
import QueryWorkbench.Failure
import QueryWorkbench.JoinPath.Basic

namespace QueryWorkbench.JoinPath

/-- A chain of hops on the way, and the table it has come to. -/
structure Trail where
  here : String
  hops : List Hop := []
deriving DecidableEq

/-- The trails one hop longer, to tables that are not on the trail yet. -/
def Trail.extensions (edges : List Edge) (start : String) (t : Trail) : List Trail :=
  let visited := start :: t.hops.map (·.target)
  ((hopsFrom edges t.here).filter fun h => h.target ∉ visited).map fun h =>
    ⟨h.target, t.hops ++ [h]⟩

/-- The first trail at each table that is not in `seen`. -/
def firstAtEach (seen : List String) : List Trail → List Trail
  | [] => []
  | t :: rest =>
    if t.here ∈ seen then firstAtEach seen rest else t :: firstAtEach (t.here :: seen) rest

/-- The next level. -/
def nextLevel (edges : List Edge) (start goal : String) (level : List Trail) : List Trail :=
  (firstAtEach [] (level.filter (·.here ≠ goal))).flatMap (·.extensions edges start)

/-- The paths of a level. -/
def arrivals (goal : String) (level : List Trail) : List JoinPath :=
  (level.filter (·.here = goal)).map fun t => ⟨t.hops⟩

/-- The paths of a level and of at most `more` levels after it. -/
def searchLevels (edges : List Edge) (start goal : String) : (more : Nat) → List Trail →
    List JoinPath
  | 0, level => arrivals goal level
  | more + 1, level =>
    if level.isEmpty then []
    else
      arrivals goal level ++ searchLevels edges start goal more (nextLevel edges start goal level)

/-- Every path of at most `limit` hops that the search finds, shortest first; none from a table
to itself. -/
def search (edges : List Edge) (start goal : String) (limit : Nat) : List JoinPath :=
  if start = goal then [] else searchLevels edges start goal limit [⟨start, []⟩]

end QueryWorkbench.JoinPath
