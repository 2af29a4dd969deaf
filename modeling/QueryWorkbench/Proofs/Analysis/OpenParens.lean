/-
QueryWorkbench.Proofs.Analysis.OpenParens — the parentheses that are open at a position.

`openParens` goes over a text alone, with nothing but a stack: it gives the positions of the
parentheses that are open at its end. `StandsInCall` asks this of the text in front of one position,
and whether a query follows the innermost of them. The pass that judges many positions at once finds
just those of which this holds (`callPositions_ascending_standsInCall`).

## How the proof goes

The pass keeps a mark for each open parenthesis, made when the parenthesis is read, and no position.
A mark is a function of the position of its parenthesis (`callMark`), so the stack of the pass is
the stack of the scan with this function mapped over it. One character changes both alike
(`map_callMark_stepParens`), and so do any number of characters (`openAfter_map_callMark`, by
induction on the text). The mark on top is then the answer to `StandsInCall`
(`isCall_iff_standsInCall`).

## What the pass is given

The positions come as integers, in any order and with repeats. The pass sorts them and drops the
repeats, and it goes no further than the end of the text, which is why the statement bounds a
position on both sides and asks for no hypothesis. A negative position is judged as the one in front
of the first character, where nothing is open (`not_standsInCall_zero`).
-/
import QueryWorkbench.Proofs.Analysis.Calls

namespace QueryWorkbench.Analysis

/-! ## One scan -/

/-- The open parentheses after one more character: an opening parenthesis comes on top, and a
closing one takes away the top, if there is any. -/
def stepParens (opened : List Nat) (position : Nat) (c : Char) : List Nat :=
  if c = '(' then position :: opened else if c = ')' then opened.tail else opened

/-- The positions of the parentheses that are open at the end of a text which starts at a position
and in front of which `opened` are open; the innermost comes first. -/
def openParensFrom (opened : List Nat) (position : Nat) : List Char → List Nat
  | [] => opened
  | c :: rest => openParensFrom (stepParens opened position c) (position + 1) rest

/-- The positions of the parentheses that are open at the end of a text, the innermost first. -/
def openParens (text : List Char) : List Nat := openParensFrom [] 0 text

/-- A position stands in a call if a parenthesis is open in front of it and no query follows the
innermost such parenthesis. -/
def StandsInCall (text : List Char) (p : Nat) : Prop :=
  ∃ q ∈ (openParens (text.take p)).head?, ¬ QueryFollows (text.drop (q + 1))

instance (text : List Char) (p : Nat) : Decidable (StandsInCall text p) :=
  inferInstanceAs (Decidable (∃ q ∈ (openParens (text.take p)).head?,
    ¬ QueryFollows (text.drop (q + 1))))

/-! ## The scan and the marks of the pass -/

/-- The mark that the pass gives a parenthesis: whether it is of a call. -/
def callMark (text : List Char) (q : Nat) : Bool :=
  !startsSubquery ⟨some '(', q + 1, text.drop (q + 1)⟩

theorem callMark_eq_true_iff {text : List Char} {q : Nat} :
    callMark text q = true ↔ ¬ QueryFollows (text.drop (q + 1)) := by
  rw [callMark, Bool.not_eq_true', ← Bool.not_eq_true, startsSubquery_iff]

/-- One character changes the marks as it changes the positions. -/
theorem map_callMark_stepParens {text s : List Char} {position : Nat}
    (behind : text.drop (position + 1) = s) (opened : List Nat) (c : Char) :
    (stepParens opened position c).map (callMark text) =
      if c = '(' then (!startsSubquery ⟨some c, position + 1, s⟩) :: opened.map (callMark text)
      else if c = ')' then (opened.map (callMark text)).drop 1
      else opened.map (callMark text) := by
  rw [stepParens]
  split
  · rename_i opening
    rw [List.map_cons, callMark, behind, opening]
  · split
    · rw [List.map_tail, List.drop_one]
    · rfl

/-- Behind `front` the pass holds the marks of the parentheses that the scan holds. -/
theorem openAfter_map_callMark {text front s : List Char} (split : text = front ++ s)
    (opened : List Nat) (n : Nat) :
    openAfter (opened.map (callMark text)) front.length n s =
      (openParensFrom opened front.length (s.take n)).map (callMark text) := by
  -- The marks are of the whole text, so what has been read goes over to `front`.
  induction s generalizing front opened n with
  | nil => cases n <;> rfl
  | cons c s ih =>
    cases n with
    | zero => rw [openAfter_zero, List.take_zero, openParensFrom]
    | succ n =>
      have split' : text = (front ++ [c]) ++ s := by rw [split, List.append_assoc]; rfl
      have length : front.length + 1 = (front ++ [c]).length := by simp
      have behind : text.drop (front.length + 1) = s := by rw [split', length, List.drop_left]
      rw [List.take_succ_cons, openAfter, openParensFrom, ← map_callMark_stepParens behind, length]
      exact ih split' _ n

/-- What the pass decides at a position is what the scan decides. -/
theorem isCall_iff_standsInCall {text : List Char} {p : Nat} :
    isCall text p ↔ StandsInCall text p := by
  have split : text = [] ++ text := rfl
  have marks : openAfter [] 0 p text = (openParens (text.take p)).map (callMark text) :=
    openAfter_map_callMark split [] p
  rw [isCall, marks, List.head?_map, Option.map_eq_some_iff, StandsInCall]
  simp only [Option.mem_def, callMark_eq_true_iff]

/-! ## One pass for all positions -/

theorem not_standsInCall_zero (text : List Char) : ¬ StandsInCall text 0 := by
  rintro ⟨q, hq, -⟩
  cases hq

/-- Of any positions the pass finds, in ascending order and each once, those that are positions of
characters of the text and stand in a call by a scan of their own. -/
theorem callPositions_ascending_standsInCall (text : List Char) (positions : List Int) :
    (callPositions text positions).Pairwise (· < ·) ∧
      ∀ p, p ∈ callPositions text positions ↔
        p ∈ positions ∧ 0 ≤ p ∧ p < text.length ∧ StandsInCall text p.toNat := by
  refine ⟨pairwise_callPositions text positions, fun p => ?_⟩
  rw [mem_callPositions_iff, isCall_iff_standsInCall]
  constructor
  · rintro ⟨asked, inside, stands⟩
    have nonneg : 0 ≤ p := by
      by_contra negative
      rw [Int.toNat_eq_zero.mpr (by omega)] at stands
      exact not_standsInCall_zero text stands
    exact ⟨asked, nonneg, by omega, stands⟩
  · rintro ⟨asked, nonneg, inside, stands⟩
    exact ⟨asked, by omega, stands⟩

example : (List.range 19).filter (StandsInCall "f(a) (SELECT g(b))".toList ·) = [2, 3, 15, 16] := by
  decide +kernel

end QueryWorkbench.Analysis
