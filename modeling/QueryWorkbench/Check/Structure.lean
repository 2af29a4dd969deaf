/-
QueryWorkbench.Check.Structure — checking the structure of a query.

One level of a query is checked: that it starts from a table, that every join starts from a table
that is there already and brings in one that is not, that no column is selected twice, and that
every clause only names tables that are there. With a schema graph the names of tables and of
join columns are checked as well. Nested queries are not looked into.
-/
import QueryWorkbench.Assoc
import QueryWorkbench.Check.Issue
import QueryWorkbench.Query.JoinGroup
import QueryWorkbench.Schema.Graph

namespace QueryWorkbench.Check

variable {Q : Type} (graph : Option SchemaGraph)

/-- The id of an item, if it has one. -/
def itemId (id : String) : Option String := if id = "" then none else some id

/-- Whether a table can be meant: there is no graph, or it is a named query or a node. -/
def tableKnown (named : List String) (table : String) : Bool :=
  match graph with
  | none => true
  | some g => named.contains table || (g.node? table).isSome

/-- The issues of what a query starts from. -/
def sourceIssues (named : List String) (s : Source Q) : List Issue :=
  if s.subquery.isSome then []
  else if s.table = "" then [⟨.missingTable, "Query has no FROM table", some "from"⟩]
  else if tableKnown graph named s.table then []
  else [⟨.missingTable, "Unknown table '" ++ s.table ++ "'", some "from"⟩]

/-! ## Joins -/

/-- What the joins walked so far have brought in: the names that can be used, and the tables that
each alias stands for. -/
structure Scope where
  names : List String
  bound : List (String × (String × String))
deriving DecidableEq

/-- The scope before the first join. -/
def Scope.ofSource (s : Source Q) : Scope :=
  let base := if s.aliasName = "" then s.table else s.aliasName
  ⟨[s.table, s.aliasName].filter (· ≠ ""), if base = "" then [] else [(base, ("", s.table))]⟩

/-- The scope after a join. -/
def Scope.addJoin (scope : Scope) (j : Join Q) : Scope :=
  ⟨scope.names ++ ([j.targetTable, j.targetAlias] ++ j.subqueryAlias.toList).filter (· ≠ ""),
    Assoc.putNew j.targetAlias j.pair scope.bound⟩

/-- The issue of a join column that its table does not have. A table that is not known, or whose
columns are not, is not checked. -/
def columnIssues (g : SchemaGraph) (item : Option String) (table column : String) : List Issue :=
  match g.node? table with
  | none => []
  | some node =>
    if node.columns.isEmpty || (column ≠ "" && node.hasColumn column) then []
    else
      [⟨.invalidJoin, "Join column '" ++ column ++ "' does not exist on '" ++ table ++ "'", item⟩]

/-- The issues of the target of a join. -/
def targetIssues (named : List String) (j : Join Q) : List Issue :=
  let item := itemId j.id
  if j.subquery.isSome then []
  else if !tableKnown graph named j.targetTable then
    [⟨.missingTable, "Unknown table '" ++ j.targetTable ++ "'", item⟩]
  else
    match graph, j.condition.filter (· ≠ "") with
    | some g, none =>
      columnIssues g item j.sourceTable j.sourceColumn
        ++ columnIssues g item j.targetTable j.targetColumn
    | _, _ => []

/-- The issues of a join within the scope before it. An alias may be bound again for the same two
tables only. -/
def joinIssues (named : List String) (scope : Scope) (j : Join Q) : List Issue :=
  let item := itemId j.id
  let unsourced := if scope.names.contains j.sourceTable then [] else
    [⟨.invalidJoin, "Join source '" ++ j.sourceTable ++ "' is not in the query before joining '"
      ++ j.targetTable ++ "'", item⟩]
  let circular := if (Assoc.get? j.targetAlias scope.bound).getD j.pair = j.pair then [] else
    [⟨.circularJoin, "Join target '" ++ j.targetTable ++ "' as '" ++ j.targetAlias
      ++ "' is already in the query", item⟩]
  unsourced ++ circular ++ targetIssues graph named j

/-- Walks the joins in order: their issues, and the scope after the last one. -/
def walkJoins (named : List String) (scope : Scope) : List (Join Q) → List Issue × Scope
  | [] => ([], scope)
  | j :: rest =>
    let (more, final) := walkJoins named (scope.addJoin j) rest
    (joinIssues graph named scope j ++ more, final)

/-! ## Columns and references -/

/-- The issues of columns that are selected again without an alias. -/
def duplicateIssues (seen : List (String × String)) : List (Field Q) → List Issue
  | [] => []
  | x :: rest =>
    if (x.expression.filter (· ≠ "")).isSome || x.subquery.isSome
        || (x.aliasName.filter (· ≠ "")).isSome then
      duplicateIssues seen rest
    else if (x.table, x.column) ∈ seen then
      ⟨.duplicateColumn, "Column '" ++ x.table ++ "." ++ x.column
        ++ "' is selected more than once without an alias", itemId x.id⟩
          :: duplicateIssues seen rest
    else duplicateIssues ((x.table, x.column) :: seen) rest

/-- A clause naming a table. -/
structure Reference where
  id : String
  table : String
  clause : String
deriving DecidableEq

/-- Every table that a clause names. -/
def references (c : Clauses Q) : List Reference :=
  ((c.fields.filter fun x => (x.expression.filter (· ≠ "")).isNone).map fun x =>
      ⟨x.id, x.table, "SELECT"⟩)
    ++ ((c.conditions.getD []).map fun x => ⟨x.id, x.table, "WHERE"⟩)
    ++ ((c.groupings.getD []).map fun x => ⟨x.id, x.table, "GROUP BY"⟩)
    ++ ((c.sortings.getD []).map fun x => ⟨x.id, x.table, "ORDER BY"⟩)

/-- The issues of references to tables that are not there. -/
def referenceIssues (names : List String) (refs : List Reference) : List Issue :=
  (refs.filter fun r => r.table ≠ "" && !names.contains r.table).map fun r =>
    ⟨.missingJoin, r.clause ++ " references '" ++ r.table ++ "', which is not joined",
      itemId r.id⟩

/-- Every issue of one level of a query, in the order of the clauses. -/
def issues (c : Clauses Q) : List Issue :=
  let named := c.ctes.map (·.name)
  let (joins, scope) := walkJoins graph named (Scope.ofSource c.source) c.joins
  sourceIssues graph named c.source ++ joins ++ duplicateIssues [] c.fields
    ++ referenceIssues scope.names (references c)

end QueryWorkbench.Check
