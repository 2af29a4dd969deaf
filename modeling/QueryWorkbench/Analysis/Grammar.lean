/-
QueryWorkbench.Analysis.Grammar — the patterns that analysis looks for.

They recognise table references, subqueries, named queries and join conditions by their words;
what they do not recognise is passed over.
-/
import QueryWorkbench.Pattern.Search

namespace QueryWorkbench.Analysis

open Pattern

/-- The parts of a match that analysis uses. -/
inductive Part where
  | outer
  | inner
  | table
  | aliasName
  | opening
  | body
  | leftSchema
  | leftTable
  | leftColumn
  | rightSchema
  | rightTable
  | rightColumn
deriving DecidableEq

/-- Words that can follow a table and are not its alias. -/
def reservedWords : List String :=
  ["WHERE", "JOIN", "INNER", "LEFT", "RIGHT", "FULL", "CROSS", "OUTER", "NATURAL",
    "STRAIGHT_JOIN", "ON", "USING", "GROUP", "ORDER", "HAVING", "LIMIT", "OFFSET", "FETCH",
    "UNION", "EXCEPT", "INTERSECT", "WINDOW", "FOR", "WITH", "SELECT", "SET", "VALUES", "AS",
    "OPTION", "INTO", "APPLY", "PIVOT", "UNPIVOT", "LATERAL", "TABLESAMPLE", "WHEN", "THEN",
    "ELSE", "END", "AND", "OR", "NOT", "IN"]

/-- Not one of the reserved words. -/
def notReserved : Pattern Part := notAhead (whole (anyKeyword reservedWords))

/-- A word and a dot, if they are there. -/
def qualifier (slot : Part) : Pattern Part := option (all [keep slot word, char '.'])

/-- A table with up to two qualifiers. -/
def tableName : Pattern Part :=
  all [notAhead (whole (anyKeyword ["SELECT", "LATERAL"])), qualifier .outer, qualifier .inner,
    keep .table word]

/-- An alias, with or without AS, if it is there. -/
def tableAlias : Pattern Part :=
  option (all [someBlanks, option (all [keyword "AS", someBlanks]), notReserved,
    keep .aliasName word])

/-- A table after FROM. -/
def fromTable : Pattern Part :=
  all [wordEdge, keyword "FROM", someBlanks, tableName, tableAlias]

/-- A further table after a comma. -/
def commaTable : Pattern Part := all [blanks, char ',', blanks, tableName, tableAlias]

/-- The words that may stand before JOIN. -/
def joinSide : Pattern Part :=
  option (all [anyKeyword ["INNER", "LEFT", "RIGHT", "FULL", "CROSS"], someBlanks,
    option (all [keyword "OUTER", someBlanks])])

/-- A table after JOIN. -/
def joinTable : Pattern Part :=
  all [wordEdge, joinSide, keyword "JOIN", someBlanks, tableName, tableAlias]

/-- The start of a list of named queries. -/
def withHead : Pattern Part :=
  all [option (char ';'), blanks, keyword "WITH", someBlanks,
    option (all [keyword "RECURSIVE", someBlanks])]

/-- A named query up to its opening parenthesis. -/
def cteHead : Pattern Part :=
  all [blanks, keep .table word, blanks,
    option (all [char '(', greedy (.except ['(', ')']), char ')', blanks]),
    keyword "AS", blanks, keep .opening (char '(')]

/-- What separates named queries. -/
def cteSeparator : Pattern Part := all [blanks, char ',']

/-- The start of a query inside parentheses. -/
def selectAhead : Pattern Part := ahead (whole (keyword "SELECT"))

/-- A query in the place of a table. -/
def derivedOpening : Pattern Part :=
  all [wordEdge, anyKeyword ["FROM", "JOIN"], blanks, keep .opening (char '('), blanks,
    selectAhead]

/-- A query after IN or EXISTS. -/
def predicateOpening : Pattern Part :=
  all [wordEdge, option (all [keyword "NOT", someBlanks]), anyKeyword ["IN", "EXISTS"], blanks,
    keep .opening (char '('), blanks, selectAhead]

/-- Any query in parentheses. -/
def scalarOpening : Pattern Part := all [keep .opening (char '('), blanks, selectAhead]

/-- The alias of a query in the place of a table. -/
def derivedAlias : Pattern Part :=
  all [blanks, option (all [keyword "AS", someBlanks]), notReserved, keep .aliasName word]

/-- What ends a join condition. -/
def conditionEnd : Pattern Part :=
  anyOf (all [someBlanks, joinSide, whole (keyword "JOIN")])
    [all [someBlanks, whole (anyOf (keyword "WHERE")
      [all [keyword "GROUP", someBlanks, keyword "BY"],
        all [keyword "ORDER", someBlanks, keyword "BY"], keyword "HAVING", keyword "LIMIT",
        keyword "UNION", keyword "EXCEPT", keyword "INTERSECT", keyword "WINDOW"])],
      all [blanks, char ')'], all [blanks, char ';'], finish]

/-- A join condition. -/
def onCondition : Pattern Part :=
  all [wordEdge, keyword "ON", someBlanks, keep .body someLazy, ahead conditionEnd]

/-- An equality of two qualified columns. -/
def equality : Pattern Part :=
  all [qualifier .leftSchema, keep .leftTable word, char '.', keep .leftColumn word, blanks,
    char '=', blanks, qualifier .rightSchema, keep .rightTable word, char '.',
    keep .rightColumn word]

end QueryWorkbench.Analysis
