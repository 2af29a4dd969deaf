/-
QueryWorkbench.Text.Ranges — sets of characters given by their switch points.

A set of code points is stored as the ascending array of the code points at which membership
changes. A code point is a member exactly when the number of switch points up to and including
it is odd; that number is found by halving.
-/

namespace QueryWorkbench.Text

/-- The number of entries of the ascending array `bounds` that are at most `n`, looked for
between the positions `lo` and `hi`. -/
def switchCount (bounds : Array Nat) (n lo hi : Nat) : Nat :=
  if lo < hi then
    let mid := (lo + hi) / 2
    if bounds.getD mid 0 ≤ n then switchCount bounds n (mid + 1) hi
    else switchCount bounds n lo mid
  else lo
termination_by hi - lo

/-- Membership in the set with these switch points. -/
def inRanges (bounds : Array Nat) (c : Char) : Bool :=
  switchCount bounds c.toNat 0 bounds.size % 2 == 1

end QueryWorkbench.Text
