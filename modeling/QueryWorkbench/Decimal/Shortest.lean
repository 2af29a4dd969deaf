/-
QueryWorkbench.Decimal.Shortest — the fewest digits that read back as the same double.

A finite double is `mantissa * 2 ^ exponent`. The reals that round to it form an interval around
it, which contains its ends exactly when the mantissa is even. `shortest` tries one digit, two
digits and so on up to seventeen: on each decimal grid the two neighbours of the value are tested
against the interval, in exact arithmetic on natural numbers; the first grid with a hit wins, and
of two hits the nearer, an exact tie going to the even digit.
-/

namespace QueryWorkbench.Decimal

/-- A positive double, `mantissa * 2 ^ exponent`; `low` marks a power of two, whose lower
neighbour is only half as far away as the upper one. -/
structure Binary where
  mantissa : Nat
  exponent : Int
  low : Bool

/-- Whether the bits are those of a finite double: a field of ones stands for infinities, and for what
is no number at all. -/
def isFinite (bits : UInt64) : Bool := (bits >>> 52) &&& 0x7FF != 0x7FF

/-- The magnitude of a finite double that is not zero. -/
def Binary.ofBits (bits : UInt64) : Binary :=
  let fraction := (bits &&& 0xFFFFFFFFFFFFF).toNat
  let biased := ((bits >>> 52) &&& 0x7FF).toNat
  if biased = 0 then ⟨fraction, -1074, false⟩
  else ⟨fraction + Nat.pow 2 52, (biased : Int) - 1075, fraction == 0 && biased != 1⟩

/-- The natural number that a magnitude is, if it has no fraction. -/
def Binary.whole? (b : Binary) : Option Nat :=
  if b.exponent ≥ 0 then some (b.mantissa * Nat.pow 2 b.exponent.toNat)
  else
    let unit := Nat.pow 2 (-b.exponent).toNat
    if b.mantissa % unit = 0 then some (b.mantissa / unit) else none

/-- Digits and the place of the decimal point: `0.d₁d₂… * 10 ^ point`. -/
structure Digits where
  digits : Nat
  count : Nat
  point : Int
deriving DecidableEq

/-- A fraction of natural numbers times a power of ten, brought to one numerator and one
denominator. -/
def scaleTen (num den : Nat) (power : Int) : Nat × Nat :=
  if power ≥ 0 then (num * Nat.pow 10 power.toNat, den)
  else (num, den * Nat.pow 10 (-power).toNat)

/-- The least `j` at least `start`, found within `fuel` steps, with `den ≤ num * 10 ^ j`. -/
def leadingZeros (num den : Nat) : Nat → Nat → Nat
  | 0, j => j
  | fuel + 1, j => if den ≤ num * Nat.pow 10 j then j else leadingZeros num den fuel (j + 1)

/-- The place of the decimal point of `num / den`: the value is at least a tenth of
`10 ^ point` and less than it. -/
def pointOf (num den : Nat) : Int :=
  if den ≤ num then ((Nat.toDigits 10 (num / den)).length : Int)
  else 1 - (leadingZeros num den 400 1 : Int)

/-- The nearest hit among the two neighbours, on the grid of `count` digits, of the value
`value / den` in the interval from `lo / den` to `hi / den`. -/
def gridHit (value lo hi den : Nat) (closed : Bool) (point : Int) (count : Nat) : Option Nat :=
  let (v, d) := scaleTen value den ((count : Int) - point)
  let (l, _) := scaleTen lo den ((count : Int) - point)
  let (h, _) := scaleTen hi den ((count : Int) - point)
  let inside (n : Nat) : Bool :=
    if closed then l ≤ n * d && n * d ≤ h else l < n * d && n * d < h
  let below := v / d
  let above := below + 1
  if inside below then
    if inside above then
      let gapBelow := v - below * d
      let gapAbove := above * d - v
      if gapBelow < gapAbove then some below
      else if gapAbove < gapBelow then some above
      else some (if below % 2 = 0 then below else above)
    else some below
  else if inside above then some above
  else none

/-- The first of `count`, `count + 1`, … digits with a hit. -/
def firstHit (value lo hi den : Nat) (closed : Bool) (point : Int) : Nat → Nat → Digits
  | 0, count => ⟨value / den, count, point⟩
  | fuel + 1, count =>
    match gridHit value lo hi den closed point count with
    | some n =>
      if n = Nat.pow 10 count then ⟨1, 1, point + 1⟩ else ⟨n, count, point⟩
    | none => firstHit value lo hi den closed point fuel (count + 1)

/-- The fewest digits that read back as this double. -/
def Binary.shortest (b : Binary) : Digits :=
  let value := 4 * b.mantissa
  let lo := value - (if b.low then 1 else 2)
  let hi := value + 2
  let shift := b.exponent - 2
  let closed := b.mantissa % 2 == 0
  if shift ≥ 0 then
    let k := Nat.pow 2 shift.toNat
    firstHit (value * k) (lo * k) (hi * k) 1 closed (pointOf (value * k) 1) 17 1
  else
    let den := Nat.pow 2 (-shift).toNat
    firstHit value lo hi den closed (pointOf value den) 17 1

end QueryWorkbench.Decimal
