/-
QueryWorkbench.Json.Basic — JSON values.

Integers and doubles are kept apart: a number written without a point and without an exponent is
an exact integer, any other one a double. The members of an object keep the order of first
appearance.
-/
import QueryWorkbench.Assoc

namespace QueryWorkbench

/-- A JSON value. -/
inductive Json where
  | null
  | bool (b : Bool)
  | int (n : Int)
  | num (x : Float)
  | str (s : String)
  | arr (items : List Json)
  | obj (members : List (String × Json))

namespace Json

/-- Whether a value counts as something: neither null, false, zero nor an empty text, list or
object. -/
def isTruthy : Json → Bool
  | null => false
  | bool b => b
  | int n => n ≠ 0
  | num x => !(x == 0.0)
  | str s => s ≠ ""
  | arr items => !items.isEmpty
  | obj members => !members.isEmpty

/-- The kind of a value, as error messages name it. -/
def kindName : Json → String
  | null => "NoneType"
  | bool _ => "bool"
  | int _ => "int"
  | num _ => "float"
  | str _ => "str"
  | arr _ => "list"
  | obj _ => "dict"

/-- The member of an object, `none` for other values. -/
def member? (key : String) : Json → Option Json
  | obj members => Assoc.get? key members
  | _ => none

mutual

/-- How deep arrays and objects are nested. -/
def depth : Json → Nat
  | arr items => depthItems items + 1
  | obj members => depthMembers members + 1
  | _ => 0

/-- The greatest depth among the items. -/
def depthItems : List Json → Nat
  | [] => 0
  | v :: rest => max (depth v) (depthItems rest)

/-- The greatest depth among the members. -/
def depthMembers : List (String × Json) → Nat
  | [] => 0
  | (_, v) :: rest => max (depth v) (depthMembers rest)

end

/-- A string, or null. -/
def ofOption (s : Option String) : Json := (s.map str).getD null

/-- A list of strings. -/
def ofStrings (items : List String) : Json := arr (items.map str)

end Json

end QueryWorkbench
