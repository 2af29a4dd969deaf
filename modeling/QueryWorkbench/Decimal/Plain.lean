/-
QueryWorkbench.Decimal.Plain — the written form of a double.

The shortest digits that read back are written positionally, with at least one decimal, when the
value is at least `1e-4` and less than `1e16`; otherwise with an exponent that has a sign and two
digits or more. Zero keeps its sign.
-/
import QueryWorkbench.Decimal.Shortest

namespace QueryWorkbench.Decimal

/-- Where positional writing ends and how exponents look. -/
structure Style where
  /-- The least place of the decimal point that is written positionally. -/
  least : Int
  /-- The greatest place of the decimal point that is written positionally. -/
  greatest : Int
  /-- The least number of exponent digits. -/
  exponentWidth : Nat

/-- The style of numbers in generated text. -/
def plainStyle : Style := ⟨-3, 16, 2⟩

/-- Digits written out with a decimal point and without an exponent. -/
def positional (digits : List Char) (point : Int) : List Char :=
  if point ≤ 0 then '0' :: '.' :: (List.replicate (-point).toNat '0' ++ digits)
  else if digits.length ≤ point.toNat then
    digits ++ List.replicate (point.toNat - digits.length) '0' ++ ['.', '0']
  else digits.take point.toNat ++ '.' :: digits.drop point.toNat

/-- Digits written with an exponent. -/
def scientific (style : Style) (digits : List Char) (point : Int) : List Char :=
  let power := point - 1
  let shown := Nat.toDigits 10 power.natAbs
  let fraction := match digits.drop 1 with
    | [] => []
    | rest => '.' :: rest
  digits.take 1 ++ fraction ++ 'e' :: (if power < 0 then '-' else '+') ::
    (List.replicate (style.exponentWidth - shown.length) '0' ++ shown)

/-- A magnitude in the given style. -/
def Digits.written (style : Style) (d : Digits) : List Char :=
  let digits := Nat.toDigits 10 d.digits
  if style.least ≤ d.point && d.point ≤ style.greatest then positional digits d.point
  else scientific style digits d.point

/-- A double as text. -/
def ofFloat (x : Float) : String :=
  if x.isNaN then "nan"
  else
    let sign := if x.toBits >>> 63 = 1 then "-" else ""
    if x.isInf then sign ++ "inf"
    else if x == 0.0 then sign ++ "0.0"
    else sign ++ String.ofList ((Binary.ofBits x.toBits).shortest.written plainStyle)

end QueryWorkbench.Decimal
