/-
QueryWorkbench.Analysis.Report — tables, joins and aliases found in SQL text.

The events of a scan are added up to the tables mentioned, the aliases, and the names that are no
tables. A report lists every table once and relates every two tables at most once, both without
regard to case, and leaves out names that a query defines. Three limits bound the work: the
length of the text, the matches of one pass, and the depth of nested queries.
-/
import QueryWorkbench.Analysis.Scan
import QueryWorkbench.Analysis.Scrub
import QueryWorkbench.Outcome
import QueryWorkbench.Settings

namespace QueryWorkbench

/-- Two tables that a condition relates, by their full names. -/
structure JoinedPair where
  source : String
  target : String
  condition : Option String := none
  sourceColumn : Option String := none
  targetColumn : Option String := none
deriving DecidableEq

/-- What an analysis finds. The aliases, and the bare names of tables, are in small letters and
lead to full names. -/
structure Report where
  tables : List String := []
  joins : List JoinedPair := []
  aliases : List (String × String) := []
deriving DecidableEq

namespace Analysis

/-- The limits of an analysis. -/
structure Limits where
  maxLength : Int
  maxMatches : Int
  maxDepth : Int
deriving DecidableEq

/-- The limits that are asked for, and those of the settings for the others. A length or a number
of matches of zero asks for nothing. -/
def Limits.choose (env : Environment) (maxLength maxMatches maxDepth : Option Int) :
    Except Failure Limits := do
  let settings ← AnalyzerSettings.read env
  .ok ⟨(maxLength.filter (· ≠ 0)).getD settings.maxLength,
    (maxMatches.filter (· ≠ 0)).getD settings.maxMatches, maxDepth.getD settings.maxDepth⟩

/-! ## Findings -/

/-- What the events of a scan add up to: tables by full name, the latest first, aliases, and the
names that are no tables, in small letters. -/
structure Findings where
  tables : List String := []
  aliases : List (String × String) := []
  defined : List String := []
deriving DecidableEq

/-- A table under its schema. -/
def fullName (schema : Option String) (table : String) : String :=
  match schema with
  | some s => s ++ "." ++ table
  | none => table

/-- Adds an event. A name that a query defines is no table, and its alias is none either. -/
def Findings.add (f : Findings) : Event → Findings
  | .defined name => { f with defined := name :: f.defined }
  | .mentioned schema table aliasName =>
    let key := Text.lower table
    if key ∈ f.defined then
      { f with defined := (aliasName.map Text.lower).toList ++ f.defined }
    else
      let full := fullName schema table
      let aliases := match aliasName with
        | some a => Assoc.put (Text.lower a) full f.aliases
        | none => f.aliases
      { f with tables := full :: f.tables, aliases := Assoc.put key full aliases }
  | .tooDeep => f
  | .cutShort => f

/-- The tables in order of first mention, once each, without the names in `seen`; all names are
compared in small letters. -/
def firstMentions (seen : List String) : List String → List String
  | [] => []
  | t :: rest =>
    let key := Text.lower t
    if key ∈ seen then firstMentions seen rest else t :: firstMentions (key :: seen) rest

/-- The tables of a report. -/
def Findings.uniqueTables (f : Findings) : List String := firstMentions f.defined f.tables.reverse

/-- The table that a name in a condition stands for. -/
def Findings.resolve (f : Findings) (schema : Option String) (name : String) : String :=
  (Assoc.get? (Text.lower name) f.aliases).getD (fullName schema name)

/-! ## Joins -/

/-- The two tables that an equality relates, if it relates two different tables. -/
def Findings.relate? (f : Findings) (m : Match Part) : Option JoinedPair :=
  let left := partText m .leftTable
  let right := partText m .rightTable
  if Text.lower left ∈ f.defined || Text.lower right ∈ f.defined then none
  else
    let source := f.resolve (partText? m .leftSchema) left
    let target := f.resolve (partText? m .rightSchema) right
    if Text.lower source ∈ f.defined || Text.lower target ∈ f.defined
        || Text.lower source = Text.lower target then none
    else
      let sourceColumn := partText m .leftColumn
      let targetColumn := partText m .rightColumn
      some ⟨source, target,
        some (source ++ "." ++ sourceColumn ++ " = " ++ target ++ "." ++ targetColumn),
        some sourceColumn, some targetColumn⟩

/-- The first pair for every two tables, `seen` holding the tables related already in small
letters. -/
def firstPairs (seen : List (String × String)) : List JoinedPair → List JoinedPair
  | [] => []
  | j :: rest =>
    let a := Text.lower j.source
    let b := Text.lower j.target
    if (a, b) ∈ seen || (b, a) ∈ seen then firstPairs seen rest
    else j :: firstPairs ((a, b) :: seen) rest

theorem firstPairs_cons (seen : List (String × String)) (j : JoinedPair) (rest : List JoinedPair) :
    firstPairs seen (j :: rest) =
      if (Text.lower j.source, Text.lower j.target) ∈ seen ||
          (Text.lower j.target, Text.lower j.source) ∈ seen then
        firstPairs seen rest
      else j :: firstPairs ((Text.lower j.source, Text.lower j.target) :: seen) rest := rfl

/-- The joins of a text, and an event if not all conditions could be used. -/
def joinsOf (limit : Int) (f : Findings) (text : List Char) : List JoinedPair × List Event :=
  let (conditions, cut) := bounded limit onCondition text
  let equalities := conditions.flatMap fun m => equality.findAll (m.part .body)
  (firstPairs [] (equalities.filterMap f.relate?), cut)

/-! ## Analyses -/

/-- The warnings that events call for: one for every query left out, and one at the end if any
pass was cut short. -/
def warningsOf (limits : Limits) (events : List Event) : List Warning :=
  (events.filter (· = .tooDeep)).map (fun _ => .tooDeep limits.maxDepth)
    ++ if .cutShort ∈ events then [.matchLimit] else []

/-- Analyses scrubbed text. -/
def reportOf (limits : Limits) (text : List Char) : Report × List Event :=
  let events := scanStatement limits.maxMatches limits.maxDepth text
  let findings := events.foldl Findings.add {}
  let (joins, cut) := joinsOf limits.maxMatches findings text
  (⟨findings.uniqueTables, joins, findings.aliases⟩, events ++ cut)

/-- Analyses SQL text. Text that is too long gives an empty report and a warning. -/
def analyze (limits : Limits) (sql : String) : Report × List Warning :=
  if sql.length > limits.maxLength then ({}, [.tooLong sql.length limits.maxLength])
  else
    let (report, events) := reportOf limits (scrubChars sql.toList)
    (report, warningsOf limits events)

/-- Analyses a value that should be SQL text. -/
def analyzeValue (limits : Limits) : Json → Outcome Report
  | .str sql =>
    let (report, warnings) := analyze limits sql
    ⟨.ok report, warnings⟩
  | other => .fail (.notText other.kindName)

end Analysis

end QueryWorkbench
