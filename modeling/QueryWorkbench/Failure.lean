/-
QueryWorkbench.Failure — why an operation gives no result.
-/
import QueryWorkbench.Document.Validated

namespace QueryWorkbench

/-- The families of names that an argument can be chosen from. -/
inductive Family where
  | dialect
  | joinKind
  | direction
  | unionKind
deriving DecidableEq

/-- How messages call a family of names. -/
def Family.name : Family → String
  | dialect => "Dialect"
  | joinKind => "JoinType"
  | direction => "OrderDirection"
  | unionKind => "UnionType"

/-- The causes of failure. -/
inductive Failure where
  /-- A document does not fit its type. -/
  | document (issues : List Document.Issue)
  /-- An argument is not a name of its family; it is kept as it is displayed. -/
  | unknownName (shown : String) (family : Family)
  /-- A manual join was asked for without a pair of columns. -/
  | emptyManualJoin
  /-- Generation was asked for a dialect that there is not. -/
  | unsupportedDialect (shown : String)
  /-- Generation was asked for something that is no query. -/
  | notQuery (kind : String)
  /-- Analysis was asked for something that is no text. -/
  | notText (kind : String)
  /-- A path search was given a negative limit. -/
  | negativeDepth (limit : Int)
  /-- A file cannot be read. -/
  | unreadable (file : String)
  /-- A file is not JSON. -/
  | malformed (file : String)
deriving DecidableEq

/-- The text of a failure. Faults of documents and files are reported in other ways and have no
text of their own. -/
def Failure.message : Failure → String
  | document _ => ""
  | unreadable _ => ""
  | malformed _ => ""
  | unknownName shown family => shown ++ " is not a valid " ++ family.name
  | emptyManualJoin => "A manual join needs at least one column pair"
  | unsupportedDialect shown => "Unsupported dialect: " ++ shown
  | notQuery kind => "Expected a QueryAST, got " ++ kind
  | notText kind => "Expected SQL text, got " ++ kind
  | negativeDepth limit => "max_depth must be >= 0, got " ++ toString limit

end QueryWorkbench
