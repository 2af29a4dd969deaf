/-
QueryWorkbench.Query.Basic — queries as structured values.

A query is made of clauses, and SQL allows a nested query in most of them. The items of the
clauses are therefore parameterised by the type `Q` of what stands in the place of a nested
query: `Clauses Q` is one level of a query, and `Query` ties the knot. Operations on one level
are written once for every `Q`; `Query.fold` (in `QueryWorkbench.Query.Fold`) carries them
through all levels.
-/
import QueryWorkbench.Json.Basic

namespace QueryWorkbench

/-! ## Kinds -/

/-- The kinds of joins. -/
inductive JoinKind where
  | inner
  | left
  | right
  | full
deriving DecidableEq

namespace JoinKind

/-- The keyword of a join kind. -/
def name : JoinKind → String
  | inner => "INNER"
  | left => "LEFT"
  | right => "RIGHT"
  | full => "FULL"

/-- Every join kind. -/
def all : List JoinKind := [inner, left, right, full]

end JoinKind

/-- The operators of conditions. -/
inductive Operator where
  | equal
  | notEqual
  | notEqualAngled
  | greater
  | greaterOrEqual
  | less
  | lessOrEqual
  | like
  | notLike
  | isIn
  | notIn
  | isNull
  | isNotNull
  | between
  | notBetween
  | hasRows
  | hasNoRows
deriving DecidableEq

namespace Operator

/-- The text of an operator. -/
def name : Operator → String
  | equal => "="
  | notEqual => "!="
  | notEqualAngled => "<>"
  | greater => ">"
  | greaterOrEqual => ">="
  | less => "<"
  | lessOrEqual => "<="
  | like => "LIKE"
  | notLike => "NOT LIKE"
  | isIn => "IN"
  | notIn => "NOT IN"
  | isNull => "IS NULL"
  | isNotNull => "IS NOT NULL"
  | between => "BETWEEN"
  | notBetween => "NOT BETWEEN"
  | hasRows => "EXISTS"
  | hasNoRows => "NOT EXISTS"

/-- Every operator. -/
def all : List Operator :=
  [equal, notEqual, notEqualAngled, greater, greaterOrEqual, less, lessOrEqual, like, notLike,
    isIn, notIn, isNull, isNotNull, between, notBetween, hasRows, hasNoRows]

end Operator

/-- The words between conditions. -/
inductive Connective where
  | and
  | or
deriving DecidableEq

namespace Connective

/-- The keyword of a connective. -/
def name : Connective → String
  | and => "AND"
  | or => "OR"

/-- Every connective. -/
def all : List Connective := [and, or]

end Connective

/-- The directions of sorting. -/
inductive Direction where
  | ascending
  | descending
deriving DecidableEq

namespace Direction

/-- The keyword of a direction. -/
def name : Direction → String
  | ascending => "ASC"
  | descending => "DESC"

/-- Every direction. -/
def all : List Direction := [ascending, descending]

end Direction

/-- The aggregates that a selected column may be wrapped in. -/
inductive Aggregate where
  | count
  | sum
  | average
  | minimum
  | maximum
deriving DecidableEq

namespace Aggregate

/-- The function name of an aggregate. -/
def name : Aggregate → String
  | count => "COUNT"
  | sum => "SUM"
  | average => "AVG"
  | minimum => "MIN"
  | maximum => "MAX"

/-- Every aggregate. -/
def all : List Aggregate := [count, sum, average, minimum, maximum]

end Aggregate

/-- The kinds of unions. -/
inductive UnionKind where
  | distinct
  | all
deriving DecidableEq

namespace UnionKind

/-- The keyword of a union. -/
def name : UnionKind → String
  | distinct => "UNION"
  | all => "UNION ALL"

/-- Every kind of union. -/
def every : List UnionKind := [distinct, all]

end UnionKind

/-! ## Items of clauses -/

/-- The table, or the nested query, that a query starts from. -/
structure Source (Q : Type) where
  table : String := ""
  aliasName : String := ""
  schema : Option String := none
  subquery : Option Q := none

/-- One entry of the SELECT list: a nested query, raw text, or a column that may be aggregated. -/
structure Field (Q : Type) where
  id : String := ""
  table : String := ""
  column : String := ""
  aliasName : Option String := none
  order : Int := 0
  expression : Option String := none
  aggregate : Option Aggregate := none
  subquery : Option Q := none

/-- One join of a target with a table that is already there. A condition of its own replaces the
equality of the two columns. -/
structure Join (Q : Type) where
  id : String := ""
  kind : JoinKind := .left
  sourceTable : String
  sourceAlias : String
  sourceColumn : String := ""
  targetTable : String
  targetAlias : String
  targetColumn : String := ""
  condition : Option String := none
  edge : Option String := none
  subquery : Option Q := none
  subqueryAlias : Option String := none

/-- One condition of WHERE. The value is a scalar, a list for IN and BETWEEN, or raw text for
EXISTS. -/
structure Condition (Q : Type) where
  id : String := ""
  table : String := ""
  column : String := ""
  operator : Operator := .equal
  value : Json := .null
  connective : Option Connective := none
  order : Int := 0
  subquery : Option Q := none

/-- One entry of GROUP BY. -/
structure Grouping where
  id : String := ""
  table : String
  column : String
  order : Int := 0
deriving DecidableEq

/-- One entry of ORDER BY. -/
structure Sorting where
  id : String := ""
  table : String
  column : String
  direction : Direction := .ascending
  order : Int := 0
deriving DecidableEq

/-- How many rows are wanted and how many are skipped. -/
structure Limit where
  count : Nat
  offset : Option Nat := none
deriving DecidableEq

/-- A named query in front of the main one. -/
structure Cte (Q : Type) where
  id : String := ""
  name : String
  query : Q
  columns : Option (List String) := none
  recursive : Bool := false

/-- A query whose rows are added. -/
structure Union (Q : Type) where
  id : String := ""
  kind : UnionKind := .distinct
  query : Q
  order : Int := 0

/-! ## Levels and queries -/

/-- All clauses of one level of a query. WHERE, GROUP BY and ORDER BY may be absent or there
without entries. -/
structure Clauses (Q : Type) where
  source : Source Q := {}
  fields : List (Field Q) := []
  joins : List (Join Q) := []
  conditions : Option (List (Condition Q)) := none
  groupings : Option (List Grouping) := none
  sortings : Option (List Sorting) := none
  limit : Option Limit := none
  ctes : List (Cte Q) := []
  unions : List (Union Q) := []

/-- A query, with queries of any depth in its clauses. -/
inductive Query where
  | mk (clauses : Clauses Query)

/-- The clauses of a query. -/
def Query.clauses : Query → Clauses Query
  | mk clauses => clauses

end QueryWorkbench
