/-
QueryWorkbench.CommandLine.Run — what the commands do.

A command reads its files, does its work and leaves a screen; failures become screens too. The
files are given as a function from names, so that a command is a plain function of its input.
-/
import QueryWorkbench.Check.Structure
import QueryWorkbench.CommandLine.Command
import QueryWorkbench.CommandLine.Screen
import QueryWorkbench.Highlight.Selection
import QueryWorkbench.JoinPath.Finder
import QueryWorkbench.Json.Parser
import QueryWorkbench.Json.Printer
import QueryWorkbench.Outcome
import QueryWorkbench.Schema.Document
import QueryWorkbench.Sql.Format
import QueryWorkbench.Sql.Generator

namespace QueryWorkbench.CommandLine

/-- Where commands read from: files by name, and the standard input. -/
structure Files where
  file? : String → Option String
  input : String

/-- The line breaks of every system turned into line feeds. -/
def plainLines : List Char → List Char
  | '\r' :: '\n' :: rest => '\n' :: plainLines rest
  | '\r' :: rest => '\n' :: plainLines rest
  | c :: rest => c :: plainLines rest
  | [] => []

namespace Files

/-- The text of a file; the standard input is taken as it is. -/
def text (files : Files) (name : String) : Except Failure String :=
  if name = "-" then .ok files.input
  else
    match files.file? name with
    | some s => .ok (String.ofList (plainLines s.toList))
    | none => .error (.unreadable name)

/-- What is left to read after a file was read: the standard input is empty the second time. -/
def after (files : Files) (name : String) : Files :=
  if name = "-" then { files with input := "" } else files

/-- A document in a file. -/
def document {α : Type} (files : Files) (read : Document.Reader α) (name : String) :
    Except Failure α := do
  let s ← files.text name
  match Json.parse? s with
  | some v => (read v).toExcept.mapError .document
  | none => .error (.malformed name)

end Files

/-- A report as JSON, without the columns of its joins. -/
def reportJson (r : Report) : Json := .obj [
  ("tables", .ofStrings r.tables),
  ("joins", .arr (r.joins.map fun j => .obj [("from", .str j.source), ("to", .str j.target),
    ("condition", .ofOption j.condition)])),
  ("aliases", .obj (r.aliases.map fun (name, table) => (name, .str table)))]

/-- A hop in words. -/
def hopText (h : Hop) : String :=
  h.source ++ "." ++ h.sourceColumn ++ " = " ++ h.target ++ "." ++ h.targetColumn

/-- An edge in words. -/
def edgeText (e : Edge) : String :=
  e.source ++ "." ++ e.sourceColumn ++ " → " ++ e.target ++ "." ++ e.targetColumn

/-- A table with a title in the style of titles. -/
def titled (title : String) (columns : List String) (rows : List (List String)) : Display :=
  .table (styled "bold cyan" title) columns rows

/-- Names on one line, or a dash. -/
def namesOrDash (names : List String) : String :=
  let joined := ", ".intercalate names
  if joined = "" then "-" else joined

variable (env : Environment) (files : Files)

/-- Generates SQL from a query document, after a check if one is asked for. -/
def runGenerate (query : String) (dialect : Option Dialect) (isCompact validate : Bool)
    (graph : Option String) (raw : Bool) : Except Failure Screen := do
  let q ← files.document Query.read query
  let issues ← if validate then do
      let g ← match graph.filter (· ≠ "") with
        | some name => ((files.after query).document Schema.readGraph name).map some
        | none => pure none
      pure (Check.issues g q.clauses)
    else pure []
  if issues.isEmpty then
    let g ← Sql.Generator.choose env (dialect.map (·.name)) (some !isCompact)
    let sql := g.text q
    .ok (if raw then .print sql else .sql ("Generated SQL (" ++ g.dialect.name ++ ")") sql)
  else .ok (.error "Validation Error" (some ("\n".intercalate (issues.map (·.message)))))

/-- Lists the join paths between two tables. -/
def runPaths (graph source target : String) (maxDepth : Option Int) : Except Failure Screen := do
  let g ← files.document Schema.readGraph graph
  let f ← PathFinder.make env g none none
  let found ← f.allPaths source target maxDepth
  if found.isEmpty then
    .ok (.showing [.line (styled "dim" ("No path from " ++ source ++ " to " ++ target ++ "."))])
  else
    let rows := found.mapIdx fun i p =>
      [toString (i + 1), toString p.length, " → ".intercalate (p.hops.map hopText)]
    .ok (.showing [titled ("Join paths: " ++ source ++ " → " ++ target) ["#", "Hops", "Path"] rows])

/-- Lists the tables that are related to given ones. -/
def runSuggest (graph : String) (tables : List String) : Except Failure Screen := do
  let g ← files.document Schema.readGraph graph
  let f ← PathFinder.make env g none none
  match f.relatedTables tables with
  | [] => .ok (.showing [.line (styled "dim" "No related tables.")])
  | found =>
    let rows := found.map fun t =>
      [t.table, ", ".intercalate (t.relationships.map fun r => edgeText r.edge)]
    .ok (.showing [titled "Related tables" ["Table", "Via"] rows])

/-- Lists the tables and joins of SQL text. -/
def runAnalyze (sql : String) (json : Bool) : Outcome Screen := do
  let limits ← Analysis.Limits.choose env none none none
  let text ← files.text sql
  let r ← Analysis.analyzeValue limits (.str text)
  if json then pure (.print (reportJson r).indented)
  else
    pure (.showing [titled "Tables" ["Table"] (r.tables.map ([·])),
      titled "Joins" ["From", "To", "Condition"]
        (r.joins.map fun j => [j.source, j.target, j.condition.getD ""])])

/-- Shows the part of a graph that SQL text is about. -/
def runHighlight (sql graph : String) (json : Bool) : Outcome Screen := do
  let g ← files.document Schema.readGraph graph
  let text ← (files.after graph).text sql
  let limits ← Analysis.Limits.choose env none none none
  let r ← Analysis.analyzeValue limits (.str text)
  let s := Highlight.select r g.nodeIds g.edges
  if json then
    pure (.print (Json.obj [("highlightedTableIds", .ofStrings s.tables),
      ("highlightedEdgeIds", .ofStrings s.edges), ("analysis", reportJson r)]).indented)
  else
    pure (.showing [.line (styled "bold cyan" "Tables:" ++ " " ++ namesOrDash s.tables),
      .line (styled "bold cyan" "Edges:" ++ " " ++ namesOrDash s.edges)])

/-- Lays SQL text out. -/
def runFormat (sql : String) (raw : Bool) : Except Failure Screen := do
  let text ← files.text sql
  let laidOut := Sql.format text
  .ok (if raw then .print laidOut else .sql "Formatted SQL" laidOut)

/-- Does the work of a command. -/
def work : Command → Outcome Screen
  | .generate query dialect isCompact validate graph raw =>
    runGenerate env files query dialect isCompact validate graph raw
  | .paths graph source target maxDepth => runPaths env files graph source target maxDepth
  | .suggest graph tables => runSuggest env files graph tables
  | .analyze sql json => runAnalyze env files sql json
  | .highlight sql graph json => runHighlight env files sql graph json
  | .format sql raw => runFormat files sql raw

/-- The screen that a command leaves, and its warnings. -/
def run (command : Command) : Screen × List Warning :=
  let done := work env files command
  match done.result with
  | .ok screen => (screen, done.warnings)
  | .error f => (.ofFailure f, done.warnings)

end QueryWorkbench.CommandLine
