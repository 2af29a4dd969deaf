/-
QueryWorkbench.Json.Parser — JSON text read into a value.

The reader works on the list of characters and hands on what it has not read. Its fuel is the
length of the text: every value, item and member takes at least one character. In an object with
a repeated key the last value counts and stands where the key appeared first.
-/
import QueryWorkbench.Json.Basic
import QueryWorkbench.Text.Hex

namespace QueryWorkbench.Json

open QueryWorkbench.Text

/-- The four blanks of JSON. -/
def isJsonBlank (c : Char) : Bool := c = ' ' || c = '\n' || c = '\t' || c = '\r'

/-- Skips blanks. -/
def skipBlanks (s : List Char) : List Char := s.dropWhile isJsonBlank

/-! ## Strings -/

/-- Four hexadecimal digits. -/
def hexUnit? : List Char → Option (Nat × List Char)
  | a :: b :: c :: d :: rest => do
    let a ← hexValue? a
    let b ← hexValue? b
    let c ← hexValue? c
    let d ← hexValue? d
    some (((a * 16 + b) * 16 + c) * 16 + d, rest)
  | _ => none

/-- The character of a simple escape. -/
def simpleEscape? : Char → Option Char
  | '\x22' => some '\x22'
  | '\\' => some '\\'
  | '/' => some '/'
  | 'b' => some '\x08'
  | 'f' => some '\x0c'
  | 'n' => some '\n'
  | 'r' => some '\r'
  | 't' => some '\t'
  | _ => none

/-- The characters of a string up to its closing quote. An escaped high surrogate is combined
with the low one after it; a surrogate on its own becomes the replacement character. -/
def stringChars : Nat → List Char → List Char → Option (List Char × List Char)
  | 0, _, _ => none
  | _ + 1, _, [] => none
  | fuel + 1, done, c :: rest =>
    if c = '\x22' then some (done.reverse, rest)
    else if c = '\\' then
      match rest with
      | 'u' :: more =>
        match hexUnit? more with
        | none => none
        | some (unit, after) =>
          if 0xD800 ≤ unit && unit < 0xDC00 then
            match after with
            | '\\' :: 'u' :: more =>
              match hexUnit? more with
              | some (low, afterLow) =>
                if 0xDC00 ≤ low && low < 0xE000 then
                  let n := 0x10000 + (unit - 0xD800) * 0x400 + (low - 0xDC00)
                  stringChars fuel (Char.ofNat n :: done) afterLow
                else stringChars fuel ('\uFFFD' :: done) after
              | none => none
            | _ => stringChars fuel ('\uFFFD' :: done) after
          else if 0xDC00 ≤ unit && unit < 0xE000 then stringChars fuel ('\uFFFD' :: done) after
          else stringChars fuel (Char.ofNat unit :: done) after
      | e :: more =>
        match simpleEscape? e with
        | some d => stringChars fuel (d :: done) more
        | none => none
      | [] => none
    else if c.toNat < 32 then none
    else stringChars fuel (c :: done) rest

/-! ## Numbers -/

/-- The value of a run of ASCII digits. -/
def digitsValue (digits : List Char) : Nat :=
  digits.foldl (fun n c => n * 10 + (c.toNat - 48)) 0

/-- The double `mantissa * 10 ^ power`; powers that only give zero or infinity are cut first. -/
def scaledFloat (mantissa : Nat) (power : Int) : Float :=
  if mantissa = 0 then 0.0
  else
    let size : Int := (Nat.toDigits 10 mantissa).length
    if size + power < -400 then 0.0
    else if size + power > 400 then 1.0 / 0.0
    else if power < 0 then Float.ofScientific mantissa true power.natAbs
    else Float.ofScientific mantissa false power.natAbs

/-- An optional exponent. -/
def exponent? : List Char → Option (Option Int × List Char)
  | c :: rest =>
    if c = 'e' || c = 'E' then
      let (negative, digits) := match rest with
        | '-' :: more => (true, more)
        | '+' :: more => (false, more)
        | more => (false, more)
      let shown := digits.takeWhile Char.isDigit
      if shown.isEmpty then none
      else
        let n : Int := digitsValue shown
        some (some (if negative then -n else n), digits.drop shown.length)
    else some (none, c :: rest)
  | [] => some (none, [])

/-- An optional fraction: its digits. -/
def fraction? : List Char → Option (Option (List Char) × List Char)
  | '.' :: rest =>
    let shown := rest.takeWhile Char.isDigit
    if shown.isEmpty then none else some (some shown, rest.drop shown.length)
  | rest => some (none, rest)

/-- A number without its sign. -/
def magnitude? (negative : Bool) (s : List Char) : Option (Json × List Char) := do
  let whole := s.takeWhile Char.isDigit
  guard (!whole.isEmpty && (whole.head? ≠ some '0' || whole.length = 1))
  let (fraction, rest) ← fraction? (s.drop whole.length)
  let (power, rest) ← exponent? rest
  match fraction, power with
  | none, none =>
    let n : Int := digitsValue whole
    some (int (if negative then -n else n), rest)
  | _, _ =>
    let decimals := fraction.getD []
    let x := scaledFloat (digitsValue (whole ++ decimals)) (power.getD 0 - decimals.length)
    some (num (if negative then -x else x), rest)

/-! ## Values -/

/-- A literal word. -/
def literal? (word : List Char) (value : Json) (s : List Char) : Option (Json × List Char) :=
  if word.isPrefixOf s then some (value, s.drop word.length) else none

mutual

/-- One value. -/
def value? : Nat → List Char → Option (Json × List Char)
  | 0, _ => none
  | fuel + 1, s =>
    match skipBlanks s with
    | '\x7b' :: rest =>
      match skipBlanks rest with
      | '\x7d' :: after => some (obj [], after)
      | inside => members? fuel [] inside
    | '[' :: rest =>
      match skipBlanks rest with
      | ']' :: after => some (arr [], after)
      | inside => items? fuel [] inside
    | '\x22' :: rest =>
      (stringChars (rest.length + 1) [] rest).map fun (text, after) =>
        (str (String.ofList text), after)
    | '-' :: rest => magnitude? true rest
    | 't' :: rest => literal? ['r', 'u', 'e'] (bool true) rest
    | 'f' :: rest => literal? ['a', 'l', 's', 'e'] (bool false) rest
    | 'n' :: rest => literal? ['u', 'l', 'l'] null rest
    | inside => magnitude? false inside

/-- The items of an array, at least one, up to the closing bracket. -/
def items? : Nat → List Json → List Char → Option (Json × List Char)
  | 0, _, _ => none
  | fuel + 1, done, s =>
    match value? fuel s with
    | none => none
    | some (v, rest) =>
      match skipBlanks rest with
      | ',' :: after => items? fuel (v :: done) after
      | ']' :: after => some (arr (v :: done).reverse, after)
      | _ => none

/-- The members of an object, at least one, up to the closing brace. -/
def members? : Nat → List (String × Json) → List Char → Option (Json × List Char)
  | 0, _, _ => none
  | fuel + 1, done, s =>
    match skipBlanks s with
    | '\x22' :: rest =>
      match stringChars (rest.length + 1) [] rest with
      | none => none
      | some (key, afterKey) =>
        match skipBlanks afterKey with
        | ':' :: afterColon =>
          match value? fuel afterColon with
          | none => none
          | some (v, rest) =>
            let members := Assoc.put (String.ofList key) v done
            match skipBlanks rest with
            | ',' :: after => members? fuel members after
            | '\x7d' :: after => some (obj members, after)
            | _ => none
        | _ => none
    | _ => none

end

/-- A whole JSON text: one value and blanks around it. -/
def parse? (text : String) : Option Json :=
  let s := text.toList
  match value? (s.length + 1) s with
  | some (v, rest) => if (skipBlanks rest).isEmpty then some v else none
  | none => none

end QueryWorkbench.Json
