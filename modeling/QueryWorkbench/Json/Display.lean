/-
QueryWorkbench.Json.Display — JSON values as shown in messages and in raw conditions.

`display` writes strings between quotes, null as `None`, truth values with a capital, and puts a
space after each comma and colon. `plain` differs for a string alone, which it leaves bare.
-/
import QueryWorkbench.Decimal.Plain
import QueryWorkbench.Json.Basic
import QueryWorkbench.Text.Quoted

namespace QueryWorkbench.Json

mutual

/-- A value as it is shown inside a list, an object or a message. -/
def display : Json → String
  | null => "None"
  | bool b => if b then "True" else "False"
  | int n => toString n
  | num x => Decimal.ofFloat x
  | str s => Text.quoted s
  | arr items => "[" ++ ", ".intercalate (displayItems items) ++ "]"
  | obj members => "\x7b" ++ ", ".intercalate (displayMembers members) ++ "\x7d"

/-- Items one by one. -/
def displayItems : List Json → List String
  | [] => []
  | v :: rest => display v :: displayItems rest

/-- Members one by one. -/
def displayMembers : List (String × Json) → List String
  | [] => []
  | (k, v) :: rest => (Text.quoted k ++ ": " ++ display v) :: displayMembers rest

end

/-- A value as text of its own: a string as it is, any other value as displayed. -/
def plain : Json → String
  | str s => s
  | v => display v

end QueryWorkbench.Json
