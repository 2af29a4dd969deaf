/-
QueryWorkbench.Analysis.Paren — parentheses in SQL text.

`closing?` finds the end of a parenthesis by counting; `callPositions` tells, in one pass, which
of some positions stand directly inside a parenthesis that opens no subquery, such as the FROM of
`EXTRACT(YEAR FROM d)`.
-/
import QueryWorkbench.Pattern.Search

namespace QueryWorkbench.Analysis

open Pattern

/-- How many characters there are up to the parenthesis that brings the count `opened` back to
zero; `passed` of them have been read. -/
def closing? (opened : Int) (passed : Nat) : List Char → Option Nat
  | [] => none
  | c :: rest =>
    if c = '(' then closing? (opened + 1) (passed + 1) rest
    else if c = ')' then
      if opened = 1 then some passed else closing? (opened - 1) (passed + 1) rest
    else closing? opened (passed + 1) rest

/-- The position of the parenthesis that closes the one at `start`. A negative start counts from
the end, and the text is read on from its beginning. -/
def closingParen? (text : List Char) (start : Int) : Option Int :=
  let read := if start < 0 then text.drop (text.length + start).toNat ++ text
    else text.drop start.toNat
  (closing? 0 0 read).map (start + ·)

/-- The word that starts a subquery. -/
def subqueryStart : Pattern Unit := all [blanks, whole (keyword "SELECT")]

/-- Whether a subquery starts here. -/
def startsSubquery (here : Place) : Bool := (subqueryStart.matchAt? here).isSome

/-- Goes over the text with the open parentheses, the innermost first, each marked whether it is
of a call. `pending` holds the positions still to be judged, ascending, and `done` those found,
the latest first. -/
def callsFrom (opened : List Bool) (pending done : List Int) (position : Nat) :
    List Char → List Int
  | [] => done.reverse
  | c :: rest =>
    if pending.isEmpty then done.reverse
    else
      let here := pending.takeWhile fun p => p ≤ (position : Int)
      let pending := pending.drop here.length
      let done := if opened.head? = some true then here.reverse ++ done else done
      let opened :=
        if c = '(' then (!startsSubquery ⟨some c, position + 1, rest⟩) :: opened
        else if c = ')' then opened.drop 1
        else opened
      callsFrom opened pending done (position + 1) rest

/-- Of the given positions, those directly inside the parenthesis of a call, ascending. -/
def callPositions (text : List Char) (positions : List Int) : List Int :=
  callsFrom [] (positions.mergeSort (· ≤ ·)).eraseDups [] 0 text

end QueryWorkbench.Analysis
