/-
QueryWorkbench.Highlight.Matcher — table names of SQL text matched with ids of a schema.

Names are compared in small letters and without brackets and spaces, either in full or by their
bare part. `matchId?` chooses one id for a name, `related` gives all that could be meant.
-/
import QueryWorkbench.Text.Blank
import QueryWorkbench.Text.Dotted
import QueryWorkbench.Text.LowerCase

namespace QueryWorkbench.Highlight

open Text

/-- A name in small letters, without brackets, spaces and the blanks around it. -/
def normalized (name : String) : List Char :=
  (trim (lowerChars name.toList)).filter fun c => !(c = '[' || c = ']' || c = ' ')

/-- The bare part of a normalized name. -/
def bare (name : String) : List Char := afterLastDot (normalized name)

/-- Whether two names match, in full or by their bare parts. -/
def tablesMatch (a b : String) : Bool :=
  normalized a == normalized b || bare a == bare b

/-- What a name could refer to: the first id with the same normalized name, or else every id with
the same bare part. -/
def candidates (ids : List String) (name : String) : List String :=
  let ids := ids.eraseDups
  match ids.find? fun id => normalized id == normalized name with
  | some id => [id]
  | none => ids.filter fun id => bare id == bare name

/-- Every id that matches a name. -/
def related (ids : List String) (name : String) : List String :=
  ids.eraseDups.filter fun id => tablesMatch id name

/-- Whether an id, in small letters, is a normalized name or ends with its bare part after a
dot. -/
def prefers (name id : String) : Bool :=
  let lowered := lowerChars id.toList
  lowered == normalized name || ('.' :: bare name).isSuffixOf lowered

/-- The id chosen for a name: a single candidate, or the first one that is preferred, or the
first. -/
def matchId? (ids : List String) (name : String) : Option String :=
  match candidates ids name with
  | [] => none
  | [id] => some id
  | first :: rest => some (((first :: rest).find? (prefers name)).getD first)

end QueryWorkbench.Highlight
