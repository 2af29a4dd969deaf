/-
QueryWorkbench.CommandLine.Command — the subcommands and how they are written.
-/
import QueryWorkbench.CommandLine.Arguments
import QueryWorkbench.Sql.Dialect
import QueryWorkbench.Text.Integer

namespace QueryWorkbench.CommandLine

/-- A subcommand with its arguments and options. File names are kept as given; a dash stands for
the standard input. -/
inductive Command where
  | generate (query : String) (dialect : Option Dialect) (isCompact validate : Bool)
      (graph : Option String) (raw : Bool)
  | paths (graph source target : String) (maxDepth : Option Int)
  | suggest (graph : String) (tables : List String)
  | analyze (sql : String) (json : Bool)
  | highlight (sql graph : String) (json : Bool)
  | format (sql : String) (raw : Bool)

/-- The name of a dialect as an option takes it: exactly one of the names. -/
def dialectOption? (name : String) : Option Dialect := Dialect.all.find? (·.name == name)

/-- Reads the values given for an option. All of them must be readable, and the last one
counts. -/
def lastOf? {α : Type} (read : String → Option α) (given : List String) : Option (Option α) :=
  (given.mapM read).map List.getLast?

/-- A subcommand by its name and the words behind it. -/
def Command.ofWords? : List String → Option Command
  | "generate" :: words => do
    let s ← Usage.sort? ⟨["--compact", "--validate", "--raw"], ["--dialect", "--graph"], 1, false⟩
      words
    let query ← s.arguments[0]?
    let dialect ← lastOf? dialectOption? (s.given "--dialect")
    some (.generate query dialect (s.has "--compact") (s.has "--validate")
      (s.given "--graph").getLast? (s.has "--raw"))
  | "paths" :: words => do
    let s ← Usage.sort? ⟨[], ["--max-depth"], 3, false⟩ words
    let graph ← s.arguments[0]?
    let source ← s.arguments[1]?
    let target ← s.arguments[2]?
    let maxDepth ← lastOf? (fun v => Text.numeral? v.toList) (s.given "--max-depth")
    some (.paths graph source target maxDepth)
  | "suggest" :: words => do
    let s ← Usage.sort? ⟨[], [], 1, true⟩ words
    let graph ← s.arguments[0]?
    some (.suggest graph (s.arguments.drop 1))
  | "analyze" :: words => do
    let s ← Usage.sort? ⟨["--json"], [], 1, false⟩ words
    let sql ← s.arguments[0]?
    some (.analyze sql (s.has "--json"))
  | "highlight" :: words => do
    let s ← Usage.sort? ⟨["--json"], [], 2, false⟩ words
    let sql ← s.arguments[0]?
    let graph ← s.arguments[1]?
    some (.highlight sql graph (s.has "--json"))
  | "format" :: words => do
    let s ← Usage.sort? ⟨["--raw"], [], 1, false⟩ words
    let sql ← s.arguments[0]?
    some (.format sql (s.has "--raw"))
  | _ => none

/-- Whether a word in front of the subcommand asks for more messages: `--verbose`, shortened or
not, or a dash and one `v` or more. -/
def isVerbose (word : String) : Bool :=
  let chars := word.toList
  (chars.length > 2 && chars.isPrefixOf "--verbose".toList)
    || (chars.head? = some '-' && chars.length > 1 && (chars.drop 1).all (· = 'v'))

/-- A whole command line. -/
def Command.ofArguments? (words : List String) : Option Command :=
  Command.ofWords? (words.dropWhile isVerbose)

/-- The files that a command can read. -/
def Command.files : Command → List String
  | generate query _ _ _ graph _ => query :: graph.toList
  | paths graph _ _ _ => [graph]
  | suggest graph _ => [graph]
  | analyze sql _ => [sql]
  | highlight sql graph _ => [sql, graph]
  | format sql _ => [sql]

end QueryWorkbench.CommandLine
