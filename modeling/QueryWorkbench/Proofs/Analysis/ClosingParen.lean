/-
QueryWorkbench.Proofs.Analysis.ClosingParen — the parenthesis that closes another one.

A stretch of a text is level if it opens as many parentheses as it closes, and the match of a
parenthesis is where the first level stretch ends that starts with it. `closingParen?` finds the
match (`closingParen?_isMatch`), and there is none exactly if no stretch is level. What is between a
parenthesis and its match is nested: each parenthesis there has a match there, and no two
parentheses have the same one.

## How the proof goes

The count of `closing?` is compared with the levels of prefixes on a plain list first. What it stops
at ends the shortest level prefix (`isLeast_of_closing?`), and if it runs to the end of the list no
prefix is level (`not_levelAfter`). A least position is unique, and so both can be read in the other
direction (`closing?_eq_some_iff`, `closing?_eq_none_iff_forall`). Only then the positions of a text
come in: `readFrom` is what is read from a position on, and `levels_iff` and `isMatch_iff` carry the
statements over. For the nesting the text is cut in front of the inner parenthesis, and what is left
of the stretch is enough to close it (`nested_of_closing?`).

## The side condition

The position has to be one of an opening parenthesis. It may be negative, which counts from the end,
and a match may then have a position of either sign: `charAt?`, `stretch` and the matches are stated
for integers, and `bounds_of_charAt?` says that a character at a position bounds it.
-/
import Mathlib.Order.Bounds.Basic
import QueryWorkbench.Proofs.Analysis.Enclosed

namespace QueryWorkbench.Analysis

/-! ## Positions of a text -/

/-- The character at a position; a negative position counts from the end. -/
def charAt? (text : List Char) (i : Int) : Option Char :=
  if i < 0 then text.reverse[(-i - 1).toNat]? else text[i.toNat]?

/-- The characters from one position to another, with those at both. Behind the last character, at
`-1`, comes the first one, at `0`. -/
def stretch (text : List Char) (i j : Int) : List Char :=
  (List.range (j + 1 - i).toNat).filterMap fun n : Nat => charAt? text (i + n)

example : stretch "f(a)".toList 1 3 = "(a)".toList ∧
    stretch "f(a)".toList (-2) 0 = "a)f".toList := by decide

/-- From the position `i` to a later one, `j`, a text opens as many parentheses as it closes. -/
def Levels (text : List Char) (i j : Int) : Prop :=
  i < j ∧ j < text.length ∧ (stretch text i j).count '(' = (stretch text i j).count ')'

/-- The match of the parenthesis at `i` is the first position up to which the text is level. -/
def IsMatch (text : List Char) (i j : Int) : Prop := IsLeast {j | Levels text i j} j

/-! ## Counting from an opening parenthesis -/

section

variable {s : List Char} {n : Nat}

/-- Behind an opening parenthesis, `n` characters close as many as they open together with it. -/
def LevelAfter (s : List Char) (n : Nat) : Prop :=
  0 < n ∧ n ≤ s.length ∧ height ('(' :: s.take n) = 0

theorem not_levelAfter (unclosed : closing? 1 0 s = none) : ¬ LevelAfter s n := by
  rintro ⟨-, -, level⟩
  have open_ := one_le_of_closing?_eq_none (by decide) (closing?_take_eq_none unclosed n)
  rw [height_opening] at level
  omega

/-- The count ends where the text is level for the first time. -/
theorem isLeast_of_closing? (h : closing? 0 0 ('(' :: s) = some n) :
    IsLeast {n | LevelAfter s n} n := by
  obtain ⟨a, b, rfl, rfl, unclosed, level⟩ := exists_of_closing?_opening h
  refine ⟨⟨Nat.succ_pos _, by simp, ?_⟩, fun m ⟨pos, inside, sum⟩ => ?_⟩
  · have taken : (a ++ ')' :: b).take (a.length + 1) = a ++ [')'] := by
      rw [List.take_length_add_append]
      rfl
    have closing : height [')'] = -1 := rfl
    rw [taken, height_opening, height_append, closing]
    omega
  · by_contra early
    rw [List.take_append_of_le_length (by omega)] at sum
    exact not_levelAfter unclosed ⟨pos, by omega, sum⟩

theorem closing?_eq_none_iff_forall :
    closing? 0 0 ('(' :: s) = none ↔ ∀ n, ¬ LevelAfter s n := by
  constructor
  · intro none n
    exact not_levelAfter (closing?_opening_eq_none_iff.mp none)
  · intro never
    refine Option.eq_none_iff_forall_ne_some.mpr fun n found => ?_
    exact never n (isLeast_of_closing? found).1

theorem closing?_eq_some_iff :
    closing? 0 0 ('(' :: s) = some n ↔ IsLeast {n | LevelAfter s n} n := by
  refine ⟨isLeast_of_closing?, fun least => ?_⟩
  cases found : closing? 0 0 ('(' :: s) with
  | none => exact absurd least.1 (closing?_eq_none_iff_forall.mp found n)
  | some m => rw [(isLeast_of_closing? found).unique least]

/-- What ends the count is a closing parenthesis, and those in between are closed in between. -/
theorem nested_of_closing? (h : closing? 0 0 ('(' :: s) = some n) :
    ('(' :: s)[n]? = some ')' ∧ ∀ k t, 0 < k → k < n → ('(' :: s).drop k = '(' :: t →
      ∃ m, closing? 0 0 ('(' :: t) = some m ∧ k + m < n := by
  obtain ⟨a, b, rfl, rfl, unclosed, level⟩ := exists_of_closing?_opening h
  refine ⟨by simp, fun k t pos early there => ?_⟩
  obtain ⟨k, rfl⟩ := Nat.exists_eq_add_of_lt pos
  rw [Nat.zero_add, List.drop_succ_cons, List.drop_append_of_le_length (by omega)] at there
  cases inner : a.drop k with
  | nil =>
    have := List.drop_eq_nil_iff.mp inner
    omega
  | cons c y =>
    -- The part `a` is cut in front of the inner parenthesis, and `y` is enough to close it.
    rw [inner, List.cons_append] at there
    obtain ⟨rfl, rfl⟩ := List.cons.inj there
    have whole : a = a.take k ++ '(' :: y := by rw [← inner, List.take_append_drop]
    have length : (a.drop k).length = y.length + 1 := by rw [inner, List.length_cons]
    rw [List.length_drop] at length
    rw [whole] at unclosed level
    obtain ⟨m, found⟩ := Option.ne_none_iff_exists'.mp (closing?_ne_none unclosed level)
    have short := lt_of_closing? found
    rw [List.length_cons] at short
    refine ⟨m, ?_, by omega⟩
    rw [← List.cons_append, closing?_append, found]
    rfl

end

/-! ## Reading from a position -/

section

variable {text s : List Char} {i j : Int}

/-- The text from a position on; from a negative one it is read from there to its end and then once
more as a whole. -/
def readFrom (text : List Char) (i : Int) : List Char :=
  if i < 0 then text.drop (text.length + i).toNat ++ text else text.drop i.toNat

theorem closingParen?_eq (text : List Char) (i : Int) :
    closingParen? text i = (closing? 0 0 (readFrom text i)).map fun n : Nat => i + n := by
  rw [closingParen?, readFrom]
  cases closing? 0 0 (if i < 0 then text.drop (text.length + i).toNat ++ text
    else text.drop i.toNat) <;> rfl

theorem bounds_of_charAt? {c : Char} (h : charAt? text i = some c) :
    -text.length ≤ i ∧ i < text.length := by
  rw [charAt?] at h
  split at h
  · have := (List.getElem?_eq_some_iff.mp h).1
    rw [List.length_reverse] at this
    omega
  · have := (List.getElem?_eq_some_iff.mp h).1
    omega

/-- What is read are the characters at the positions one after the other. -/
theorem getElem?_readFrom (inside : -text.length ≤ i) (n : Nat) :
    (readFrom text i)[n]? = charAt? text (i + n) := by
  rw [readFrom, charAt?]
  by_cases negative : i < 0
  · rw [if_pos negative]
    by_cases before : i + n < 0
    · rw [if_pos before, List.getElem?_append_left (by rw [List.length_drop]; omega),
        List.getElem?_drop, List.getElem?_reverse (by omega)]
      congr 1
      omega
    · rw [if_neg before, List.getElem?_append_right (by rw [List.length_drop]; omega),
        List.length_drop]
      congr 1
      omega
  · rw [if_neg negative, if_neg (by omega), List.getElem?_drop]
    congr 1
    omega

theorem length_readFrom (low : -text.length ≤ i) (high : i < text.length) :
    (readFrom text i).length = (text.length - i).toNat := by
  rw [readFrom]
  split
  · rw [List.length_append, List.length_drop]
    omega
  · rw [List.length_drop]
    omega

theorem drop_readFrom (inside : -text.length ≤ i) (k : Nat) :
    (readFrom text i).drop k = readFrom text (i + k) := by
  refine List.ext_getElem? fun n => ?_
  rw [List.getElem?_drop, getElem?_readFrom inside, getElem?_readFrom (by omega), Int.natCast_add,
    Int.add_assoc]

theorem filterMap_getElem?_range {α : Type} (l : List α) (n : Nat) :
    (List.range n).filterMap (l[·]?) = l.take n := by
  induction n with
  | zero => rfl
  | succ n ih =>
    rw [List.range_succ, List.filterMap_append, ih, List.take_add_one]
    cases here : l[n]? <;> simp [here]

/-- The stretch up to a later position is the start of what is read. -/
theorem stretch_eq_take (inside : -text.length ≤ i) (n : Nat) :
    stretch text i (i + n) = (readFrom text i).take (n + 1) := by
  have length : (i + n + 1 - i).toNat = n + 1 := by omega
  rw [stretch, length, ← filterMap_getElem?_range]
  simp only [getElem?_readFrom inside]

theorem exists_readFrom (opening : charAt? text i = some '(') : ∃ s, readFrom text i = '(' :: s := by
  have first := getElem?_readFrom (bounds_of_charAt? opening).1 0
  rw [Int.natCast_zero, Int.add_zero, opening] at first
  cases read : readFrom text i with
  | nil => rw [read] at first; cases first
  | cons c s =>
    rw [read] at first
    exact ⟨s, by rw [Option.some.inj first]⟩

theorem levels_iff (opening : charAt? text i = some '(') (read : readFrom text i = '(' :: s) :
    Levels text i j ↔ ∃ n : Nat, i + n = j ∧ LevelAfter s n := by
  obtain ⟨low, high⟩ := bounds_of_charAt? opening
  have length := length_readFrom low high
  rw [read, List.length_cons] at length
  have same (n : Nat) : (stretch text i (i + n)).count '(' = (stretch text i (i + n)).count ')' ↔
      height ('(' :: s.take n) = 0 := by
    rw [stretch_eq_take low, read, List.take_succ_cons, height]
    omega
  constructor
  · rintro ⟨later, inside, even⟩
    obtain ⟨n, rfl⟩ := Int.le.dest (Int.le_of_lt later)
    exact ⟨n, rfl, by omega, by omega, (same n).mp even⟩
  · rintro ⟨n, rfl, pos, inside, level⟩
    exact ⟨by omega, by omega, (same n).mpr level⟩

theorem isMatch_iff (opening : charAt? text i = some '(') (read : readFrom text i = '(' :: s) :
    IsMatch text i j ↔ ∃ n : Nat, i + n = j ∧ IsLeast {n | LevelAfter s n} n := by
  constructor
  · rintro ⟨here, first⟩
    obtain ⟨n, rfl, level⟩ := (levels_iff opening read).mp here
    refine ⟨n, rfl, level, fun m hm => ?_⟩
    have := first ((levels_iff opening read).mpr ⟨m, rfl, hm⟩)
    omega
  · rintro ⟨n, rfl, level, first⟩
    refine ⟨(levels_iff opening read).mpr ⟨n, rfl, level⟩, fun k hk => ?_⟩
    obtain ⟨m, rfl, hm⟩ := (levels_iff opening read).mp hk
    have := first hm
    omega

/-- The count from an opening parenthesis ends at its match. -/
theorem closingParen?_eq_some_iff (opening : charAt? text i = some '(') :
    closingParen? text i = some j ↔ IsMatch text i j := by
  obtain ⟨s, read⟩ := exists_readFrom opening
  rw [closingParen?_eq, read, Option.map_eq_some_iff, isMatch_iff opening read]
  simp only [closing?_eq_some_iff, and_comm]

/-- The count from an opening parenthesis does not end if the text is never level. -/
theorem closingParen?_eq_none_iff (opening : charAt? text i = some '(') :
    closingParen? text i = none ↔ ∀ j, ¬ Levels text i j := by
  obtain ⟨s, read⟩ := exists_readFrom opening
  rw [closingParen?_eq, read, Option.map_eq_none_iff, closing?_eq_none_iff_forall]
  simp only [levels_iff opening read, not_exists, not_and]
  exact ⟨fun never _ n _ => never n, fun never n => never _ n rfl⟩

namespace IsMatch

/-- The match of a parenthesis is a closing one. -/
theorem closes (opening : charAt? text i = some '(') (h : IsMatch text i j) :
    charAt? text j = some ')' := by
  obtain ⟨s, read⟩ := exists_readFrom opening
  obtain ⟨n, rfl, least⟩ := (isMatch_iff opening read).mp h
  rw [← getElem?_readFrom (bounds_of_charAt? opening).1, read]
  exact (nested_of_closing? (closing?_eq_some_iff.mpr least)).1

/-- A parenthesis inside another one has its match inside. -/
theorem exists_inside (opening : charAt? text i = some '(') (h : IsMatch text i j) {k : Int}
    (behind : i < k) (before : k < j) (inner : charAt? text k = some '(') :
    ∃ m, IsMatch text k m ∧ k < m ∧ m < j := by
  obtain ⟨s, read⟩ := exists_readFrom opening
  obtain ⟨n, rfl, least⟩ := (isMatch_iff opening read).mp h
  obtain ⟨d, rfl⟩ := Int.le.dest (Int.le_of_lt behind)
  obtain ⟨t, read'⟩ := exists_readFrom inner
  have rest : ('(' :: s).drop d = '(' :: t := by
    rw [← read, drop_readFrom (bounds_of_charAt? opening).1, read']
  obtain ⟨m, found, early⟩ := (nested_of_closing? (closing?_eq_some_iff.mpr least)).2 d t
    (by omega) (by omega) rest
  have matched : IsMatch text (i + d) (i + d + m) :=
    (isMatch_iff inner read').mpr ⟨m, rfl, closing?_eq_some_iff.mp found⟩
  exact ⟨_, matched, matched.1.1, by omega⟩

/-- No two parentheses have the same match. -/
theorem eq_of_isMatch {k : Int} (opening : charAt? text i = some '(') (h : IsMatch text i j)
    (other : charAt? text k = some '(') (h' : IsMatch text k j) : k = i := by
  rcases Int.lt_trichotomy i k with less | same | greater
  · obtain ⟨m, matched, -, early⟩ := h.exists_inside opening less h'.1.1 other
    exact absurd (matched.unique h') (Int.ne_of_lt early)
  · exact same.symm
  · obtain ⟨m, matched, -, early⟩ := h'.exists_inside other greater h.1.1 opening
    exact absurd (matched.unique h) (Int.ne_of_lt early)

end IsMatch

/-- Counting from an opening parenthesis finds its match, if the text is level from there up to some
position, and else nothing. At the match stands a closing parenthesis that is the match of no other
one, and each opening parenthesis strictly between the two has its match strictly between them. -/
theorem closingParen?_isMatch (opening : charAt? text i = some '(') :
    (∀ j, closingParen? text i = some j ↔ IsMatch text i j) ∧
    (closingParen? text i = none ↔ ∀ j, ¬ Levels text i j) ∧
    ∀ j, closingParen? text i = some j → charAt? text j = some ')' ∧
      (∀ k, charAt? text k = some '(' → closingParen? text k = some j → k = i) ∧
      ∀ k, i < k → k < j → charAt? text k = some '(' →
        ∃ m, closingParen? text k = some m ∧ IsMatch text k m ∧ i < m ∧ m < j := by
  refine ⟨fun j => closingParen?_eq_some_iff opening, closingParen?_eq_none_iff opening,
    fun j found => ?_⟩
  have matched : IsMatch text i j := (closingParen?_eq_some_iff opening).mp found
  refine ⟨matched.closes opening, fun k other found' => ?_, fun k behind before inner => ?_⟩
  · exact matched.eq_of_isMatch opening other ((closingParen?_eq_some_iff other).mp found')
  · obtain ⟨m, inside, later, early⟩ := matched.exists_inside opening behind before inner
    exact ⟨m, (closingParen?_eq_some_iff inner).mpr inside, inside, by omega, early⟩

/-- A call with a query and another call in it, between parentheses that have no match. -/
def callsInside : List Char := ")f(a, (SELECT b), g()) + (c".toList

theorem closingParen?_isMatch_callsInside :
    charAt? callsInside 2 = some '(' ∧ IsMatch callsInside 2 21 ∧ charAt? callsInside 21 = some ')' ∧
    (∃ m, closingParen? callsInside 6 = some m ∧ IsMatch callsInside 6 m ∧ 2 < m ∧ m < 21) ∧
    charAt? callsInside 25 = some '(' ∧ closingParen? callsInside 25 = none ∧
    (∀ j, ¬ Levels callsInside 25 j) ∧
    charAt? callsInside (-2) = some '(' ∧ IsMatch callsInside (-2) 0 := by
  have call : charAt? callsInside 2 = some '(' := by decide
  have query : charAt? callsInside 6 = some '(' := by decide
  have last : charAt? callsInside 25 = some '(' := by decide
  have from_end : charAt? callsInside (-2) = some '(' := by decide
  have unmatched : closingParen? callsInside 25 = none := by decide
  obtain ⟨least, -, nested⟩ := closingParen?_isMatch call
  obtain ⟨closes, -, inside⟩ := nested 21 (by decide)
  exact ⟨call, (least 21).mp (by decide), closes, inside 6 (by decide) (by decide) query, last,
    unmatched, (closingParen?_isMatch last).2.1.mp unmatched, from_end,
    ((closingParen?_isMatch from_end).1 0).mp (by decide)⟩

end

end QueryWorkbench.Analysis
