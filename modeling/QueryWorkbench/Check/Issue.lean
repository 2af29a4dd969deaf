/-
QueryWorkbench.Check.Issue — what can be wrong with the structure of a query.
-/

namespace QueryWorkbench.Check

/-- The kinds of issues. -/
inductive IssueKind where
  | missingTable
  | duplicateColumn
  | invalidJoin
  | circularJoin
  | missingJoin
deriving DecidableEq

/-- The name of a kind of issue. -/
def IssueKind.name : IssueKind → String
  | missingTable => "missing_table"
  | duplicateColumn => "duplicate_column"
  | invalidJoin => "invalid_join"
  | circularJoin => "circular_join"
  | missingJoin => "missing_join"

/-- One issue, and the id of the item that it is about. -/
structure Issue where
  kind : IssueKind
  message : String
  item : Option String := none
deriving DecidableEq

/-- All issues in one text, if there is any. -/
def summary? : List Issue → Option String
  | [] => none
  | issues => some ("; ".intercalate (issues.map (·.message)))

end QueryWorkbench.Check
