/-
QueryWorkbench.Text.Integer — integers written as text.

`integer?` reads the numerals that documents and settings accept: white space around them, a
sign, leading zeros, single underscores between digits, and a fraction of zeros. `numeral?` reads
the numerals of the command line: decimal digits of any script and no fraction.
-/
import QueryWorkbench.Text.Blank
import QueryWorkbench.Text.Digit

namespace QueryWorkbench.Text

/-- A sign, and what follows it; `true` for a minus. -/
def splitSign : List Char → Bool × List Char
  | '-' :: rest => (true, rest)
  | '+' :: rest => (false, rest)
  | rest => (false, rest)

/-- The value of a non-empty run of digits, with single underscores between digits only. -/
def digitRun? (value? : Char → Option Nat) : Option Nat → List Char → Option Nat
  | soFar, [] => soFar
  | none, c :: rest =>
    match value? c with
    | some d => digitRun? value? (some d) rest
    | none => none
  | some n, '_' :: c :: rest =>
    match value? c with
    | some d => digitRun? value? (some (10 * n + d)) rest
    | none => none
  | some n, c :: rest =>
    match value? c with
    | some d => digitRun? value? (some (10 * n + d)) rest
    | none => none

/-- The value of an ASCII digit. -/
def asciiDigit? (c : Char) : Option Nat := if c.isDigit then some (c.toNat - 48) else none

/-- A number with its sign. -/
def signed (negative : Bool) (n : Nat) : Int := if negative then -(n : Int) else n

/-- The integer that a document accepts as text. -/
def integer? (s : List Char) : Option Int :=
  let (negative, rest) := splitSign (trimBy isWhiteSpace s)
  let whole := rest.takeWhile (· ≠ '.')
  let fraction := rest.drop (whole.length + 1)
  if fraction.all (· = '0') then (digitRun? asciiDigit? none whole).map (signed negative) else none

/-- The integer that the command line accepts as text. -/
def numeral? (s : List Char) : Option Int :=
  let (negative, rest) := splitSign (trim s)
  (digitRun? digitValue? none rest).map (signed negative)

end QueryWorkbench.Text
