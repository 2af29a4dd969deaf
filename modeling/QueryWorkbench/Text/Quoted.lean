/-
QueryWorkbench.Text.Quoted — text shown between quotes in messages.

Single quotes are used, unless the text has a single quote and no double quote. The quote in use
and the backslash are escaped by a backslash; tab, line feed and carriage return have letters of
their own; other characters that are not printable are written by their code point.
-/
import QueryWorkbench.Text.Hex
import QueryWorkbench.Text.Printable

namespace QueryWorkbench.Text

/-- The quote that surrounds a text. -/
def quoteFor (s : List Char) : Char :=
  if s.contains '\x27' && !s.contains '\x22' then '\x22' else '\x27'

/-- One character of a text between the quotes `quote`. -/
def quotedChar (quote c : Char) : List Char :=
  if c = quote || c = '\\' then ['\\', c]
  else if c = '\t' then ['\\', 't']
  else if c = '\n' then ['\\', 'n']
  else if c = '\r' then ['\\', 'r']
  else if isPrintable c then [c]
  else if c.toNat ≤ 0xFF then '\\' :: 'x' :: hexPadded 2 c.toNat
  else if c.toNat ≤ 0xFFFF then '\\' :: 'u' :: hexPadded 4 c.toNat
  else '\\' :: 'U' :: hexPadded 8 c.toNat

/-- The text between quotes. -/
def quotedChars (s : List Char) : List Char :=
  let quote := quoteFor s
  quote :: (s.flatMap (quotedChar quote) ++ [quote])

/-- A string between quotes. -/
def quoted (s : String) : String := String.ofList (quotedChars s.toList)

end QueryWorkbench.Text
