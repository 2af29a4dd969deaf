/-
QueryWorkbench.Analysis.Scan — what a scan of SQL text comes across.

A scan turns scrubbed text into events in the order of reading: tables mentioned, names that are
no tables because a query defines them, nested queries that were left out, and passes that were
cut short. What the events add up to is the business of `QueryWorkbench.Analysis.Report`; the scan
itself remembers nothing.
-/
import QueryWorkbench.Analysis.Grammar
import QueryWorkbench.Analysis.Paren
import QueryWorkbench.Text.LowerCase

namespace QueryWorkbench.Analysis

open Pattern

/-- What a scan comes across. -/
inductive Event where
  /-- A name that a query defines, in small letters. -/
  | defined (name : String)
  /-- A table, its schema and its alias. -/
  | mentioned (schema : Option String) (table : String) (aliasName : Option String)
  /-- A nested query that is not followed. -/
  | tooDeep
  /-- More matches than a pass may use. -/
  | cutShort
deriving DecidableEq

/-! ## Tables of one text -/

/-- A kept part as a string. -/
def partText? (m : Match Part) (slot : Part) : Option String := (m.part? slot).map String.ofList

/-- A kept part as a string, empty if it took no part. -/
def partText (m : Match Part) (slot : Part) : String := String.ofList (m.part slot)

/-- The mention of a table in a match. The qualifier next to the table is its schema. -/
def mention (m : Match Part) : Event :=
  .mentioned ((partText? m .inner).or (partText? m .outer)) (partText m .table)
    (partText? m .aliasName)

/-- The matches of one pass, at most `limit` of them, and an event if there were more. -/
def bounded (limit : Int) (p : Pattern Part) (text : List Char) : List (Match Part) × List Event :=
  let found := p.findAll text
  (found.take limit.toNat, if found.length > limit.toNat then [.cutShort] else [])

/-- The tables after commas from a place on. Every one takes at least the comma; `fuel` counts
the characters left. -/
def commaTables : (fuel : Nat) → Place → List Event
  | 0, _ => []
  | fuel + 1, here =>
    match commaTable.matchAt? here with
    | some m => mention m :: commaTables fuel m.stop
    | none => []

/-- The tables of one FROM. -/
def fromTables (m : Match Part) : List Event :=
  mention m :: commaTables m.stop.rest.length m.stop

/-- The tables of a text, not those of the queries nested in it. -/
def surface (limit : Int) (text : List Char) : List Event :=
  let (froms, cutFroms) := bounded limit fromTable text
  let calls := callPositions text (froms.map fun m => (m.start.position : Int))
  let (joins, cutJoins) := bounded limit joinTable text
  cutFroms ++ (froms.filter fun m => !calls.contains (m.start.position : Int)).flatMap fromTables
    ++ cutJoins ++ joins.map mention

/-! ## Nested queries -/

/-- A parenthesis with a query in it; `derived` if it stands in the place of a table. -/
structure Opening where
  place : Place
  derived : Bool
deriving DecidableEq

/-- The openings that a pass finds. -/
def openings (derived : Bool) (found : List (Match Part)) : List Opening :=
  found.filterMap fun m => (Assoc.get? Part.opening m.kept).map fun s => ⟨s.start, derived⟩

/-- A nested query: its text, and the name it goes by. -/
structure Nested where
  body : List Char
  name : Option String
deriving DecidableEq

/-- The outermost of some openings in ascending order, those before the position `covered` left
out. Without its closing parenthesis a query goes to the end of the text, and has no name. -/
def outermost (covered : Nat) : List Opening → List Nested
  | [] => []
  | o :: rest =>
    if o.place.position < covered then outermost covered rest
    else
      match closing? 0 0 o.place.rest with
      | some n =>
        let name := if o.derived then
            (derivedAlias.matchAt? (o.place.skip (n + 1))).map fun m =>
              String.ofList (Text.lowerChars (m.part .aliasName))
          else none
        ⟨Text.trim ((o.place.rest.take n).drop 1), name⟩ :: outermost (o.place.position + n) rest
      | none =>
        ⟨Text.trim (o.place.rest.drop 1), none⟩
          :: outermost (o.place.position + o.place.rest.length) rest

/-- The first opening at each position, of openings in ascending order. -/
def firstAtEach (last : Option Nat) : List Opening → List Opening
  | [] => []
  | o :: rest =>
    if last = some o.place.position then firstAtEach last rest
    else o :: firstAtEach (some o.place.position) rest

/-- The queries nested in a text, one level down, and whether a pass was cut short. -/
def nestedQueries (limit : Int) (text : List Char) : List Nested × List Event :=
  let (derived, cutDerived) := bounded limit derivedOpening text
  let (predicates, cutPredicates) := bounded limit predicateOpening text
  let (scalars, cutScalars) := bounded limit scalarOpening text
  let found := openings true derived ++ openings false predicates ++ openings false scalars
  let sorted := found.mergeSort fun a b => a.place.position ≤ b.place.position
  (outermost 0 (firstAtEach none sorted), cutDerived ++ cutPredicates ++ cutScalars)

/-- The name that a nested query defines. -/
def Nested.definition (n : Nested) : List Event := (n.name.map Event.defined).toList

/-! ## Whole texts -/

/-- Scans a text and the queries nested in it, `levels` levels down. -/
def scan (limit : Int) : (levels : Nat) → List Char → List Event
  | 0, text =>
    let (nested, cut) := nestedQueries limit text
    surface limit text ++ cut ++ nested.flatMap fun n => n.definition ++ [.tooDeep]
  | levels + 1, text =>
    let (nested, cut) := nestedQueries limit text
    surface limit text ++ cut ++ nested.flatMap fun n => n.definition ++ scan limit levels n.body

/-- Scans the list of named queries from a place on; the result is what follows the list. Every
named query takes at least one character; `fuel` counts the characters left. -/
def scanNamed (limit : Int) (levels : Nat) : (fuel : Nat) → Place → List Event × List Char
  | 0, here => ([], Text.trim here.rest)
  | fuel + 1, here =>
    match cteHead.matchAt? here with
    | none => ([], Text.trim here.rest)
    | some m =>
      let definition := Event.defined (String.ofList (Text.lowerChars (m.part .table)))
      match closing? 1 0 m.stop.rest with
      | none => (definition :: scan limit levels m.stop.rest, [])
      | some n =>
        let events := definition :: scan limit levels (m.stop.rest.take n)
        let after := m.stop.skip (n + 1)
        match cteSeparator.matchAt? after with
        | none => (events, Text.trim after.rest)
        | some s =>
          let (more, final) := scanNamed limit levels fuel s.stop
          (events ++ more, final)

/-- Scans a whole statement: the list of named queries in front of it, one level down, and the
query itself. -/
def scanStatement (limit maxDepth : Int) (text : List Char) : List Event :=
  match withHead.matchAt? (Place.start text) with
  | none => scan limit maxDepth.toNat text
  | some head =>
    let (events, final) := scanNamed limit (maxDepth - 1).toNat head.stop.rest.length head.stop
    events ++ scan limit maxDepth.toNat final

end QueryWorkbench.Analysis
