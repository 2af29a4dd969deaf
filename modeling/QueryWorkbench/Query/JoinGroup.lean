/-
QueryWorkbench.Query.JoinGroup — joins of the same two tables brought together.

Joins with the same source and target make one join with several conditions. A group stands where
its first member stood, and its members keep their order.
-/
import QueryWorkbench.Query.Basic

namespace QueryWorkbench

/-- The tables that a join relates. -/
def Join.pair {Q : Type} (j : Join Q) : String × String := (j.sourceTable, j.targetTable)

/-- A join and the later ones of the same two tables. -/
structure JoinGroup (Q : Type) where
  first : Join Q
  others : List (Join Q) := []

namespace JoinGroup

variable {Q : Type}

/-- All joins of a group. -/
def members (g : JoinGroup Q) : List (Join Q) := g.first :: g.others

/-- Adds a join to the group of its tables, or as a new group at the end. -/
def insert (j : Join Q) : List (JoinGroup Q) → List (JoinGroup Q)
  | [] => [⟨j, []⟩]
  | g :: rest =>
    if g.first.pair = j.pair then ⟨g.first, g.others ++ [j]⟩ :: rest else g :: insert j rest

/-- The groups of a list of joins. -/
def ofJoins (joins : List (Join Q)) : List (JoinGroup Q) :=
  joins.foldl (fun groups j => insert j groups) []

end JoinGroup

end QueryWorkbench
