/-
QueryWorkbench.Json.Printer — JSON values as text.

`compact` writes one line and keeps characters beyond ASCII; `indented` puts every item and
member on a line of its own, two spaces deeper than its container, and writes characters beyond
ASCII as UTF-16 escapes.
-/
import QueryWorkbench.Decimal.Plain
import QueryWorkbench.Json.Basic
import QueryWorkbench.Text.Hex

namespace QueryWorkbench.Json

open QueryWorkbench.Text

/-- One UTF-16 unit as an escape. -/
def unitEscape (n : Nat) : List Char := '\\' :: 'u' :: hexPadded 4 n

/-- A character inside a string; with `ascii` nothing beyond ASCII is left. -/
def escapedChar (ascii : Bool) (c : Char) : List Char :=
  let n := c.toNat
  if c = '\x22' then ['\\', '\x22']
  else if c = '\\' then ['\\', '\\']
  else if c = '\n' then ['\\', 'n']
  else if c = '\r' then ['\\', 'r']
  else if c = '\t' then ['\\', 't']
  else if c = '\x08' then ['\\', 'b']
  else if c = '\x0c' then ['\\', 'f']
  else if n < 32 then unitEscape n
  else if n < 127 then [c]
  else if ascii then
    if n < 0x10000 then unitEscape n
    else unitEscape (0xD800 + (n - 0x10000) / 0x400) ++ unitEscape (0xDC00 + (n - 0x10000) % 0x400)
  else [c]

/-- A string with its quotes. -/
def stringText (ascii : Bool) (s : String) : String :=
  String.ofList ('\x22' :: (s.toList.flatMap (escapedChar ascii) ++ ['\x22']))

mutual

/-- A value on one line. -/
def compact : Json → String
  | null => "null"
  | bool b => if b then "true" else "false"
  | int n => toString n
  | num x => Decimal.ofFloat x
  | str s => stringText false s
  | arr items => "[" ++ ",".intercalate (compactItems items) ++ "]"
  | obj members => "\x7b" ++ ",".intercalate (compactMembers members) ++ "\x7d"

/-- Items one by one. -/
def compactItems : List Json → List String
  | [] => []
  | v :: rest => compact v :: compactItems rest

/-- Members one by one. -/
def compactMembers : List (String × Json) → List String
  | [] => []
  | (k, v) :: rest => (stringText false k ++ ":" ++ compact v) :: compactMembers rest

end

/-- A line break and the indentation of a level. -/
def lineAt (level : Nat) : String := String.ofList ('\n' :: List.replicate (2 * level) ' ')

mutual

/-- A value over several lines, inside a container of this level. -/
def indentedAt (level : Nat) : Json → String
  | null => "null"
  | bool b => if b then "true" else "false"
  | int n => toString n
  | num x => Decimal.ofFloat x
  | str s => stringText true s
  | arr [] => "[]"
  | obj [] => "\x7b\x7d"
  | arr items =>
    "[" ++ lineAt (level + 1) ++ ("," ++ lineAt (level + 1)).intercalate (itemsAt (level + 1) items)
      ++ lineAt level ++ "]"
  | obj members =>
    "\x7b" ++ lineAt (level + 1)
      ++ ("," ++ lineAt (level + 1)).intercalate (membersAt (level + 1) members)
      ++ lineAt level ++ "\x7d"

/-- Items one by one. -/
def itemsAt (level : Nat) : List Json → List String
  | [] => []
  | v :: rest => indentedAt level v :: itemsAt level rest

/-- Members one by one. -/
def membersAt (level : Nat) : List (String × Json) → List String
  | [] => []
  | (k, v) :: rest => (stringText true k ++ ": " ++ indentedAt level v) :: membersAt level rest

end

/-- A value over several lines. -/
def indented (v : Json) : String := indentedAt 0 v

end QueryWorkbench.Json
