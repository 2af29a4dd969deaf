/-
QueryWorkbench.Sql.Format — a flat SELECT statement laid out over several lines.

Every main clause gets a line of its own; items of SELECT, GROUP BY and ORDER BY stand one per
line when there are several, the condition of a join is indented under it, and AND and OR start
new lines. A list of named queries in front stays on one line; nested queries are not laid out.
A text without any clause is only squeezed, and a blank one is left alone.
-/
import QueryWorkbench.Pattern.Search

namespace QueryWorkbench.Sql

open Pattern Text

/-- The parts of a match that formatting uses. -/
inductive Piece where
  | top
  | items
  | table
  | side
  | condition
  | connective
  | paging
deriving DecidableEq

namespace Clause

/-- Blanks and a keyword after them. -/
def afterBlanks (p : Pattern Piece) : Pattern Piece := seq someBlanks (whole p)

/-- Two keywords with blanks between them. -/
def twoWords (first second : String) : Pattern Piece :=
  all [keyword first, someBlanks, keyword second]

/-- The side of a join. -/
def sideWord : Pattern Piece := anyKeyword ["INNER", "LEFT", "RIGHT", "FULL"]

/-- What ends a table or a join condition. -/
def fromEnd : Pattern Piece :=
  ahead (anyOf (all [someBlanks, option (all [sideWord, someBlanks]), whole (keyword "JOIN")])
    [afterBlanks (keyword "WHERE"), afterBlanks (twoWords "GROUP" "BY"),
      afterBlanks (twoWords "ORDER" "BY"), afterBlanks (keyword "LIMIT"), finish])

/-- The SELECT list, up to FROM. -/
def select : Pattern Piece :=
  all [wordEdge, keyword "SELECT", someBlanks,
    option (keep .top (all [keyword "TOP", someBlanks, digits, someBlanks])),
    keep .items someLazy, ahead (afterBlanks (keyword "FROM"))]

/-- The first table. -/
def source : Pattern Piece :=
  all [wordEdge, keyword "FROM", someBlanks, keep .table someLazy, fromEnd]

/-- A join. -/
def join : Pattern Piece :=
  all [wordEdge, option (all [keep .side sideWord, someBlanks]), keyword "JOIN", someBlanks,
    keep .table someLazy,
    option (all [someBlanks, keyword "ON", someBlanks, keep .condition someLazy]), fromEnd]

/-- The conditions. -/
def filter : Pattern Piece :=
  all [wordEdge, keyword "WHERE", someBlanks, keep .condition someLazy,
    ahead (anyOf (afterBlanks (twoWords "GROUP" "BY"))
      [afterBlanks (twoWords "ORDER" "BY"), afterBlanks (keyword "LIMIT"), finish])]

/-- The grouping. -/
def groupBy : Pattern Piece :=
  all [wordEdge, twoWords "GROUP" "BY", someBlanks, keep .items someLazy,
    ahead (anyOf (afterBlanks (twoWords "ORDER" "BY")) [afterBlanks (keyword "LIMIT"), finish])]

/-- The sorting. -/
def orderBy : Pattern Piece :=
  all [wordEdge, twoWords "ORDER" "BY", someBlanks, keep .items someLazy,
    ahead (anyOf (afterBlanks (keyword "LIMIT")) [afterBlanks (keyword "OFFSET"), finish])]

/-- The paging, in either dialect. -/
def paging : Pattern Piece :=
  all [wordEdge, keep .paging (anyOf
    (all [keyword "LIMIT", someBlanks, digits,
      option (all [someBlanks, keyword "OFFSET", someBlanks, digits])])
    [all [keyword "OFFSET", someBlanks, digits, someBlanks, keyword "ROWS",
      option (all [someBlanks, keyword "FETCH", someBlanks, keyword "NEXT", someBlanks, digits,
        someBlanks, keyword "ROWS", someBlanks, keyword "ONLY"])]])]

/-- Parentheses and SELECT. -/
def nesting : Pattern Piece :=
  anyOf (char '(') [char ')', all [wordEdge, keyword "SELECT", wordEdge]]

/-- A connective and the blanks around it. -/
def connective : Pattern Piece :=
  all [someBlanks, keep .connective (anyKeyword ["AND", "OR"]), someBlanks]

end Clause

/-! ## Lines -/

/-- One space after every comma and none before it, in a squeezed text. -/
def tidyCommas : List Char → List Char
  | ' ' :: ',' :: ' ' :: rest => ',' :: ' ' :: tidyCommas rest
  | ' ' :: ',' :: rest => ',' :: ' ' :: tidyCommas rest
  | ',' :: ' ' :: rest => ',' :: ' ' :: tidyCommas rest
  | ',' :: rest => ',' :: ' ' :: tidyCommas rest
  | c :: rest => c :: tidyCommas rest
  | [] => []

/-- The pieces between the commas of a text, without the blanks around them and without those
that are blank. -/
def splitItems (s : List Char) : List (List Char) :=
  ((s.splitOn ',').map trim).filter (!·.isEmpty)

/-- Indented items with a comma after each but the last. -/
def commaLines : List (List Char) → List (List Char)
  | [] => []
  | [item] => [' ' :: ' ' :: item]
  | item :: rest => (' ' :: ' ' :: item ++ [',']) :: commaLines rest

/-- Items under a head: a single one on its line, several on lines of their own. -/
def itemLines (head : List Char) (items : List (List Char)) : List (List Char) :=
  match items with
  | [item] => [head ++ ' ' :: item]
  | _ => head :: commaLines items

/-- The lines from a connective on: `after` is where it ends, `next` the connectives behind it. -/
def connectiveLines (indent : List Char) : List (Match Piece) → List (List Char)
  | [] => []
  | m :: rest =>
    let stop := match rest with
      | next :: _ => next.start.position - m.stop.position
      | [] => m.stop.rest.length
    (indent ++ (m.part .connective).map keywordCapital ++ ' ' :: trim (m.stop.rest.take stop))
      :: connectiveLines indent rest

/-- A condition under a head, with a new line at every connective. -/
def conditionLines (head condition indent : List Char) : List (List Char) :=
  let found := Clause.connective.findAll condition
  let first := match found with
    | m :: _ => condition.take m.start.position
    | [] => condition
  (head ++ ' ' :: trim first) :: connectiveLines indent found

/-! ## Statements -/

/-- How deep the parentheses are nested after a match; the place of the first SELECT outside of
them ends the count. -/
def mainSelectFrom (depth : Nat) : List (Match Piece) → Option Nat
  | [] => none
  | m :: rest =>
    match m.start.rest.head? with
    | some '(' => mainSelectFrom (depth + 1) rest
    | some ')' => mainSelectFrom (depth - 1) rest
    | _ => if depth = 0 then some m.start.position else mainSelectFrom depth rest

/-- The position of the first SELECT outside parentheses, zero if there is none. -/
def mainSelect (s : List Char) : Nat := (mainSelectFrom 0 (Clause.nesting.findAll s)).getD 0

/-- The lines of a join. -/
def joinLines (m : Match Piece) : List (List Char) :=
  let side := match m.part? .side with
    | some side => side.map keywordCapital ++ [' ']
    | none => []
  (' ' :: ' ' :: side ++ "JOIN ".toList ++ trim (m.part .table)) ::
    match m.part? .condition with
    | some condition => conditionLines "    ON".toList (trim condition) "    ".toList
    | none => []

/-- The lines of the clauses that are found in a statement. -/
def clauseLines (body : List Char) : List (List Char) :=
  let lines (p : Pattern Piece) (f : Match Piece → List (List Char)) : List (List Char) :=
    ((p.search? body).map f).getD []
  lines Clause.select (fun m =>
      let head := match m.part? .top with
        | some top => "SELECT ".toList ++ trim top
        | none => "SELECT".toList
      itemLines head (splitItems (trim (m.part .items))))
    ++ lines Clause.source (fun m => ["FROM ".toList ++ trim (m.part .table)])
    ++ (Clause.join.findAll body).flatMap joinLines
    ++ lines Clause.filter (fun m =>
      conditionLines "WHERE".toList (trim (m.part .condition)) "  ".toList)
    ++ lines Clause.groupBy (fun m => itemLines "GROUP BY".toList (splitItems (m.part .items)))
    ++ lines Clause.orderBy (fun m => itemLines "ORDER BY".toList (splitItems (m.part .items)))
    ++ lines Clause.paging (fun m => [(m.part .paging).map keywordCapital])

/-- A statement laid out, as characters. -/
def formatChars (s : List Char) : List Char :=
  if (trim s).isEmpty then s
  else
    let normal := trim (tidyCommas (squeeze s))
    let start := mainSelect normal
    match clauseLines (normal.drop start) with
    | [] => normal
    | lines =>
      let all := if start = 0 then lines else trim (normal.take start) :: lines
      ['\n'].intercalate all

/-- A statement laid out. -/
def format (s : String) : String := String.ofList (formatChars s.toList)

end QueryWorkbench.Sql
