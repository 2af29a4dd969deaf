/-
QueryWorkbench.Sql.Generate — SQL text of queries.

`fragments` generates one level of a query whose nested queries are SQL text already; nested
queries are always compact, so `compactText` is a fold over the levels and `generate` lays out
the outermost one. The clauses come in the order WITH, SELECT, FROM, JOIN, WHERE, GROUP BY,
UNION, ORDER BY and paging. Queries are not checked here: names of tables, schemas, columns, CTEs
and output columns are quoted, while table aliases, expressions and custom conditions are copied
as they are.
-/
import QueryWorkbench.Query.Fold
import QueryWorkbench.Query.JoinGroup
import QueryWorkbench.Query.TableAlias
import QueryWorkbench.Sql.Layout

namespace QueryWorkbench.Sql

/-- Items in ascending order of a number, equal ones as they stand. -/
def sortedBy {α : Type} (order : α → Int) (items : List α) : List α :=
  items.mergeSort fun a b => order a ≤ order b

theorem pairwise_sortedBy {α : Type} (order : α → Int) (items : List α) :
    (sortedBy order items).Pairwise fun a b => order a ≤ order b := by
  refine (List.pairwise_mergeSort ?_ ?_ items).imp fun h => of_decide_eq_true h
  · intro a b c hab hbc
    have := of_decide_eq_true hab
    have := of_decide_eq_true hbc
    exact decide_eq_true (by omega)
  · intro a b
    rw [Bool.or_eq_true, decide_eq_true_eq, decide_eq_true_eq]
    omega

/-- An optional text that is neither absent nor empty. -/
def given (s : Option String) : Option String := s.filter (· ≠ "")

/-! ## Phrases -/

/-- A nested query in parentheses. -/
def nested (sql : String) : Phrase := [.word "(", .raw sql, .word ")"]

/-- Phrases with a comma behind the last one. -/
def endWithComma : List Phrase → List Phrase
  | [] => []
  | [p] => [p ++ [.word ","]]
  | p :: rest => p :: endWithComma rest

/-- Items with a comma behind each but the last. -/
def withCommas : List (List Phrase) → List (List Phrase)
  | [] => []
  | [item] => [item]
  | item :: rest => endWithComma item :: withCommas rest

/-- An alias behind what it is for. -/
def underAlias (shown : Phrase) (name : Token) : List Phrase := [shown, [.word "AS"], [name]]

/-- A table with its schema. -/
def tablePhrase (table : String) (schema : Option String) : Phrase :=
  [.word "."].intercalate ((Dialect.nameParts table schema).map fun s => [.name s])

/-- A table, or the nested query in its place. -/
def tableOrNested (subquery : Option String) (table : String) (schema : Option String) : Phrase :=
  match subquery with
  | some q => nested q
  | none => tablePhrase table schema

/-- A column of a table, under the table's alias. -/
def columnRef (aliases : List (String × String)) (table column : String) : Phrase :=
  let shown := if column = "*" then .word "*" else .name column
  let owner := aliasOr aliases table
  if owner = "" then [shown] else [.owner owner, shown]

/-! ## Clauses -/

variable (d : Dialect)

/-- The names for the columns of a named query. -/
def cteColumns : Option (List String) → List Phrase
  | none => []
  | some [] => []
  | some names =>
    [.word "(" :: [.word ", "].intercalate (names.map fun s => [.name s]) ++ [.word ")"]]

/-- A named query. -/
def ctePhrases (c : Cte String) : List Phrase :=
  [.name c.name] :: cteColumns c.columns ++ [[.word "AS"], nested c.query]

/-- What WITH starts with. Only MySQL marks recursion. -/
def withHead (ctes : List (Cte String)) : List Phrase :=
  if d = .mysql && ctes.any (·.recursive) then [[.word "WITH"], [.word "RECURSIVE"]]
  else [[.word "WITH"]]

/-- The WITH clause. -/
def cteFragments (ctes : List (Cte String)) : List Fragment :=
  match withCommas (ctes.map ctePhrases) with
  | [] => []
  | first :: rest => row .line (withHead d ctes ++ first) ++ rest.flatMap (row .line)

/-- What an entry of the SELECT list selects. -/
def selectedPhrase (aliases : List (String × String)) (x : Field String) : Phrase :=
  match x.subquery, given x.expression with
  | some q, _ => nested q
  | none, some e => [.raw e]
  | none, none =>
    let ref := columnRef aliases x.table x.column
    match x.aggregate with
    | some a =>
      .word a.name :: .word "(" :: (if x.column = "*" then [.word "*"] else ref) ++ [.word ")"]
    | none => ref

/-- An entry of the SELECT list. -/
def fieldPhrases (aliases : List (String × String)) (x : Field String) : List Phrase :=
  match given x.aliasName with
  | some a => underAlias (selectedPhrase aliases x) (.name a)
  | none => [selectedPhrase aliases x]

/-- The entries of the SELECT list, a star if there are none. -/
def selectItems (aliases : List (String × String)) (fields : List (Field String)) :
    List (List Phrase) :=
  match (sortedBy (·.order) fields).map (fieldPhrases aliases) with
  | [] => [[[.word "*"]]]
  | items => items

/-- What SELECT starts with: the keyword, and the number of rows when the dialect puts it there. -/
def selectHead : Option Nat → List Phrase
  | some n => [[.word "SELECT"], [.word "TOP"], [.word (toString n)]]
  | none => [[.word "SELECT"]]

/-- The SELECT clause. -/
def selectFragments (aliases : List (String × String)) (fields : List (Field String))
    (top : Option Nat) : List Fragment :=
  let items := selectItems aliases fields
  let gap := if items.length > 1 then Gap.indented else Gap.space
  row .line (selectHead top) ++ (withCommas items).flatMap (row gap)

/-- The FROM clause. -/
def sourcePhrases (s : Source String) : List Phrase :=
  let shown := tableOrNested s.subquery s.table s.schema
  [.word "FROM"] ::
    if s.aliasName = "" then [shown] else underAlias shown (.declared s.aliasName)

/-- The condition of one join. -/
def joinCondition {Q : Type} (j : Join Q) : List Phrase :=
  match given j.condition with
  | some c => [[.raw c]]
  | none =>
    [[.owner j.sourceAlias, .name j.sourceColumn], [.word "="],
      [.owner j.targetAlias, .name j.targetColumn]]

/-- The alias that the target of a join gets. -/
def targetAlias {Q : Type} (j : Join Q) : String :=
  match j.subquery with
  | some _ => (given j.subqueryAlias).getD j.targetAlias
  | none => j.targetAlias

/-- The target of a join and the alias it gets. -/
def joinTarget (j : Join String) : List Phrase :=
  underAlias (tableOrNested j.subquery j.targetTable none) (.declared (targetAlias j))

/-- A group of joins: the target of the first one, the conditions of all. -/
def joinFragments (g : JoinGroup String) : List Fragment :=
  row .indented ([.word g.first.kind.name] :: [.word "JOIN"] :: joinTarget g.first)
    ++ row .deeper ([.word "ON"] :: [[.word "AND"]].intercalate (g.members.map joinCondition))

/-- What a condition compares with. -/
def operandPhrases : Operator → Json → List Phrase
  | .between, .arr (low :: high :: _) | .notBetween, .arr (low :: high :: _) =>
    [[.value low], [.word "AND"], [.value high]]
  | .isIn, .arr items | .notIn, .arr items => [[.value (.arr items)]]
  | .isIn, v | .notIn, v => [[.value (.arr [v])]]
  | _, v => [[.value v]]

/-- One condition of WHERE, without its connective. -/
def conditionPhrases (aliases : List (String × String)) (c : Condition String) : List Phrase :=
  let operator : Phrase := [.word c.operator.name]
  let column := columnRef aliases c.table c.column
  match c.operator with
  | .hasRows | .hasNoRows =>
    let inner := match c.subquery with
      | some q => q
      | none => if c.value.isTruthy then c.value.plain else "SELECT 1"
    [operator, nested inner]
  | .isNull | .isNotNull => [column, operator]
  | kind =>
    match c.subquery with
    | some q => [column, operator, nested q]
    | none => column :: operator :: operandPhrases kind c.value

/-- The WHERE clause. The connective of the first condition is not written, and AND is written
where there is none. -/
def conditionFragments (aliases : List (String × String)) (conditions : List (Condition String)) :
    List Fragment :=
  match sortedBy (·.order) conditions with
  | [] => []
  | first :: rest =>
    row .line ([.word "WHERE"] :: conditionPhrases aliases first) ++ rest.flatMap fun c =>
      row .indented ([.word (c.connective.getD .and).name] :: conditionPhrases aliases c)

/-- The GROUP BY clause. -/
def groupingFragments (aliases : List (String × String)) (groupings : List Grouping) :
    List Fragment :=
  match sortedBy (·.order) groupings with
  | [] => []
  | sorted =>
    row .line ([.word "GROUP BY"] ::
      (withCommas (sorted.map fun g => [columnRef aliases g.table g.column])).flatten)

/-- The unions. -/
def unionFragments (unions : List (Union String)) : List Fragment :=
  (sortedBy (·.order) unions).flatMap fun u => row .line [[.word u.kind.name], [.raw u.query]]

/-- The ORDER BY clause. -/
def sortingFragments (aliases : List (String × String)) (sortings : List Sorting) :
    List Fragment :=
  match sortedBy (·.order) sortings with
  | [] => []
  | sorted =>
    row .line ([.word "ORDER BY"] :: (withCommas (sorted.map fun s =>
      [columnRef aliases s.table s.column, [.word s.direction.name]])).flatten)

/-! ## Paging -/

/-- How a level limits its rows. SQL Server skips rows only after an ORDER BY, and otherwise
puts the number of rows into SELECT. -/
inductive Paging where
  | none
  | top (count : Nat)
  | limit (count : Nat) (offset : Option Nat)
  | offsetFetch (offset count : Nat)

/-- The paging of a level. An offset of zero is no offset. -/
def pagingOf (limit : Option Limit) (sorted : Bool) : Paging :=
  match limit with
  | Option.none => .none
  | some l =>
    let skipped := l.offset.filter (· ≠ 0)
    match d, skipped with
    | .mysql, _ => .limit l.count skipped
    | .sqlServer, some n => if sorted then .offsetFetch n l.count else .top l.count
    | .sqlServer, Option.none => .top l.count

/-- The number of rows that SELECT carries. -/
def Paging.top? : Paging → Option Nat
  | .top count => some count
  | _ => Option.none

/-- The paging clause at the end. -/
def pagingFragments : Paging → List Fragment
  | .limit count Option.none => row .line [[.word "LIMIT"], [.word (toString count)]]
  | .limit count (some n) =>
    row .line [[.word "LIMIT"], [.word (toString count)], [.word "OFFSET"], [.word (toString n)]]
  | .offsetFetch n count =>
    row .line [[.word "OFFSET"], [.word (toString n)], [.word "ROWS"], [.word "FETCH NEXT"],
      [.word (toString count)], [.word "ROWS ONLY"]]
  | _ => []

/-! ## Levels and queries -/

/-- One level of a query whose nested queries are SQL text. -/
def fragments (c : Clauses String) : List Fragment :=
  let aliases := c.tableAliases
  let sortings := c.sortings.getD []
  let paging := pagingOf d c.limit !sortings.isEmpty
  cteFragments d c.ctes
    ++ selectFragments aliases c.fields paging.top?
    ++ row .line (sourcePhrases c.source)
    ++ (JoinGroup.ofJoins c.joins).flatMap joinFragments
    ++ conditionFragments aliases (c.conditions.getD [])
    ++ groupingFragments aliases (c.groupings.getD [])
    ++ unionFragments c.unions
    ++ sortingFragments aliases sortings
    ++ pagingFragments paging

/-- A query on one line. -/
def compactText (q : Query) : String := q.fold fun c => render d .compact (fragments d c)

/-- The fragments of a query, its nested queries on one line each. -/
def queryFragments (q : Query) : List Fragment := fragments d (q.clauses.map (compactText d))

/-- The SQL text of a query. -/
def generate (layout : Layout) (q : Query) : String := render d layout (queryFragments d q)

end QueryWorkbench.Sql
