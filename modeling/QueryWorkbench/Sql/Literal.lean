/-
QueryWorkbench.Sql.Literal — values as SQL literals.

Null is `NULL`, truth values are one and zero, numbers are written as they are, a list is put in
parentheses, and text stands between single quotes, with a quote inside it written twice. An
object becomes the text that displays it.
-/
import QueryWorkbench.Json.Display
import QueryWorkbench.Text.Doubled

namespace QueryWorkbench.Sql

/-- A text literal, as characters. -/
def textLiteralChars (s : List Char) : List Char :=
  '\x27' :: (Text.doubled '\x27' s ++ ['\x27'])

/-- A text literal. -/
def textLiteral (s : String) : String := String.ofList (textLiteralChars s.toList)

mutual

/-- The literal of a value. -/
def literal : Json → String
  | .null => "NULL"
  | .bool b => if b then "1" else "0"
  | .int n => toString n
  | .num x => Decimal.ofFloat x
  | .str s => textLiteral s
  | .arr items => "(" ++ ", ".intercalate (literals items) ++ ")"
  | .obj members => textLiteral (Json.obj members).display

/-- The literals of the items of a list. -/
def literals : List Json → List String
  | [] => []
  | v :: rest => literal v :: literals rest

end

end QueryWorkbench.Sql
