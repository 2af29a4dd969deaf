/-
QueryWorkbench.Proofs.Analysis.Enclosed — parts of a text between parentheses.

`closing?` counts parentheses, and `closing?_append` says how the count goes on from one part of a
text to the next. An `Excerpt` is a part of a text that can be read on its own: no word goes on
across its ends, and if a closing parenthesis ends it, the part itself is closed. A parenthesis in
an excerpt is closed there as in the whole text (`Excerpt.closing?_eq`). An `Enclosure` is the
excerpt that a parenthesis around a query makes.
-/
import QueryWorkbench.Analysis.Scan
import QueryWorkbench.Proofs.Pattern.Excerpt

namespace QueryWorkbench.Analysis

open Pattern Text

/-! ## Counting parentheses -/

/-- How many more parentheses a text opens than it closes. -/
def height (s : List Char) : Int := s.count '(' - s.count ')'

theorem height_append (s t : List Char) : height (s ++ t) = height s + height t := by
  simp only [height, List.count_append]
  omega

theorem height_opening (s : List Char) : height ('(' :: s) = 1 + height s := by
  simp only [height, List.count_cons_self, List.count_cons_of_ne (by decide : '(' ≠ ')')]
  omega

theorem height_closing (s : List Char) : height (')' :: s) = height s - 1 := by
  simp only [height, List.count_cons_self, List.count_cons_of_ne (by decide : ')' ≠ '(')]
  omega

theorem height_cons_of_ne {c : Char} (opening : c ≠ '(') (closing : c ≠ ')') (s : List Char) :
    height (c :: s) = height s := by
  rw [height, height, List.count_cons_of_ne opening, List.count_cons_of_ne closing]

theorem height_of_blank {s : List Char} (blank : ∀ c ∈ s, isBlank c = true) : height s = 0 := by
  simp [height, List.count_eq_zero.mpr (not_mem_of_blank blank (by decide : isBlank '(' = false)),
    List.count_eq_zero.mpr (not_mem_of_blank blank (by decide : isBlank ')' = false))]

section

variable {opened : Int} {passed n : Nat} {s t : List Char}

/-! What the count does at a character. -/

theorem paren_cases (c : Char) : c = '(' ∨ c = ')' ∨ c ≠ '(' ∧ c ≠ ')' := by
  by_cases opening : c = '('
  · exact Or.inl opening
  · exact Or.inr ((Decidable.em (c = ')')).imp_right fun closing => ⟨opening, closing⟩)

theorem closing?_cons_opening :
    closing? opened passed ('(' :: s) = closing? (opened + 1) (passed + 1) s := by
  rw [closing?, if_pos rfl]

theorem closing?_cons_closing : closing? opened passed (')' :: s) =
    if opened = 1 then some passed else closing? (opened - 1) (passed + 1) s := by
  rw [closing?, if_neg (by decide), if_pos rfl]

theorem closing?_cons_of_ne {c : Char} (opening : c ≠ '(') (closing : c ≠ ')') :
    closing? opened passed (c :: s) = closing? opened (passed + 1) s := by
  rw [closing?, if_neg opening, if_neg closing]

/-- The count goes on from one part of a text to the next. -/
theorem closing?_append : closing? opened passed (s ++ t) =
    (closing? opened passed s).or (closing? (opened + height s) (passed + s.length) t) := by
  induction s generalizing opened passed with
  | nil => simp [closing?, height]
  | cons c s ih =>
    rw [List.cons_append, List.length_cons, Nat.add_comm s.length, ← Nat.add_assoc]
    rcases paren_cases c with rfl | rfl | ⟨opening, closing⟩
    · rw [closing?_cons_opening, closing?_cons_opening, ih, height_opening, Int.add_assoc]
    · rw [closing?_cons_closing, closing?_cons_closing, height_closing]
      split
      · rfl
      · have lower : opened - 1 + height s = opened + (height s - 1) := by omega
        rw [ih, lower]
    · rw [closing?_cons_of_ne opening closing, closing?_cons_of_ne opening closing, ih,
        height_cons_of_ne opening closing]

/-- What is found is the parenthesis behind a part that closes nothing. -/
theorem exists_of_closing? (h : closing? opened passed s = some n) :
    ∃ a b, s = a ++ ')' :: b ∧ n = passed + a.length ∧ closing? opened passed a = none ∧
      opened + height a = 1 := by
  induction s generalizing opened passed with
  | nil => cases h
  | cons c s ih =>
    rcases paren_cases c with rfl | rfl | ⟨opening, closing⟩
    · rw [closing?_cons_opening] at h
      obtain ⟨a, b, rfl, rfl, unclosed, level⟩ := ih h
      refine ⟨'(' :: a, b, rfl, by rw [List.length_cons]; omega, ?_, ?_⟩
      · rw [closing?_cons_opening, unclosed]
      · rw [height_opening]
        omega
    · rw [closing?_cons_closing] at h
      split at h
      · rename_i last
        cases h
        exact ⟨[], s, rfl, rfl, rfl, by simp [height, last]⟩
      · rename_i more
        obtain ⟨a, b, rfl, rfl, unclosed, level⟩ := ih h
        refine ⟨')' :: a, b, rfl, by rw [List.length_cons]; omega, ?_, ?_⟩
        · rw [closing?_cons_closing, if_neg more, unclosed]
        · rw [height_closing]
          omega
    · rw [closing?_cons_of_ne opening closing] at h
      obtain ⟨a, b, rfl, rfl, unclosed, level⟩ := ih h
      refine ⟨c :: a, b, rfl, by rw [List.length_cons]; omega, ?_, ?_⟩
      · rw [closing?_cons_of_ne opening closing, unclosed]
      · rw [height_cons_of_ne opening closing, level]

theorem closing?_eq_none_of_not_mem (absent : ')' ∉ s) : closing? opened passed s = none := by
  refine Option.eq_none_iff_forall_ne_some.mpr fun n h => ?_
  obtain ⟨a, b, rfl, -⟩ := exists_of_closing? h
  exact absent (by simp)

theorem lt_of_closing? (h : closing? opened 0 s = some n) : n < s.length := by
  obtain ⟨a, b, rfl, rfl, -⟩ := exists_of_closing? h
  simp

/-- Before a parenthesis is closed, it is open. -/
theorem one_le_of_closing?_eq_none (one_le : 1 ≤ opened) (h : closing? opened passed s = none) :
    1 ≤ opened + height s := by
  induction s generalizing opened passed with
  | nil => simpa [height] using one_le
  | cons c s ih =>
    rcases paren_cases c with rfl | rfl | ⟨opening, closing⟩
    · rw [closing?_cons_opening] at h
      have inner := ih (by omega) h
      rw [height_opening]
      omega
    · rw [closing?_cons_closing] at h
      split at h
      · cases h
      · have outer := ih (by omega) h
        rw [height_closing]
        omega
    · rw [closing?_cons_of_ne opening closing] at h
      rw [height_cons_of_ne opening closing]
      exact ih one_le h

/-- What has been read before is added. -/
theorem closing?_add (k : Nat) :
    closing? opened (passed + k) s = (closing? opened passed s).map (· + k) := by
  induction s generalizing opened passed with
  | nil => rfl
  | cons c s ih =>
    rw [closing?, closing?, Nat.add_right_comm]
    split
    · exact ih
    · split
      · split
        · rfl
        · exact ih
      · exact ih

theorem closing?_eq_none_iff : closing? opened passed s = none ↔ closing? opened 0 s = none := by
  rw [← Nat.zero_add passed, closing?_add, Option.map_eq_none_iff]

/-- A beginning of a text that closes nothing closes nothing. -/
theorem closing?_take_eq_none (h : closing? opened passed s = none) (n : Nat) :
    closing? opened passed (s.take n) = none := by
  rw [← List.take_append_drop n s, closing?_append, Option.or_eq_none_iff] at h
  exact h.1

/-! The count that starts with a parenthesis. -/

theorem closing?_opening_eq_none_iff :
    closing? 0 0 ('(' :: s) = none ↔ closing? 1 0 s = none := by
  have start : closing? 0 0 ('(' :: s) = closing? 1 1 s := rfl
  rw [start, closing?_eq_none_iff]

/-- Where the count ends, a closing parenthesis stands behind a part that is closed in itself. -/
theorem exists_of_closing?_opening (h : closing? 0 0 ('(' :: s) = some n) :
    ∃ a b, s = a ++ ')' :: b ∧ n = a.length + 1 ∧ closing? 1 0 a = none ∧ height a = 0 := by
  have behind : closing? 1 1 s = some n := h
  obtain ⟨a, b, rfl, rfl, unclosed, level⟩ := exists_of_closing? behind
  exact ⟨a, b, rfl, Nat.add_comm .., closing?_eq_none_iff.mp unclosed, by omega⟩

/-- In a part that is closed in itself every parenthesis is closed. -/
theorem closing?_ne_none {a b : List Char} (unclosed : closing? 1 0 (a ++ '(' :: b) = none)
    (level : height (a ++ '(' :: b) = 0) : closing? 0 0 ('(' :: b) ≠ none := by
  intro none
  rw [closing?_append, Option.or_eq_none_iff] at unclosed
  have before := one_le_of_closing?_eq_none (by decide) unclosed.1
  have behind := one_le_of_closing?_eq_none (by decide) (closing?_opening_eq_none_iff.mp none)
  rw [height_append, height_opening] at level
  omega

end

/-! ## Trimmed parts -/

/-- Trimming takes blanks from both ends. -/
theorem exists_trim (s : List Char) : ∃ lead trail, s = lead ++ (trim s ++ trail) ∧
    (∀ c ∈ lead, isBlank c = true) ∧ ∀ c ∈ trail, isBlank c = true := by
  have blank : ∀ t : List Char, ∀ c ∈ t.takeWhile isBlank, isBlank c = true := fun _ =>
    List.all_eq_true.mp List.all_takeWhile
  refine ⟨s.takeWhile isBlank, ((s.dropWhile isBlank).reverse.takeWhile isBlank).reverse, ?_,
    blank s, fun c hc => blank _ c (List.mem_reverse.mp hc)⟩
  rw [trim, trimBy, ← List.reverse_append, List.takeWhile_append_dropWhile, List.reverse_reverse,
    List.takeWhile_append_dropWhile]

/-- Blanks behind a text are trimmed away with its own. -/
theorem trim_append_of_blank {s t : List Char} (blank : ∀ c ∈ t, isBlank c = true) :
    trim (s ++ t) = trim s := by
  have none : t.dropWhile isBlank = [] := by
    rw [← List.append_nil t, List.dropWhile_append_of_pos blank]
    rfl
  rw [trim, trim, trimBy, trimBy, List.dropWhile_append]
  split
  · rename_i empty
    rw [List.isEmpty_iff.mp empty, none]
  · rw [List.reverse_append, List.dropWhile_append_of_pos fun c hc => blank c (List.mem_reverse.mp hc)]

/-- Blanks in front of a text are trimmed away with its own. -/
theorem trim_blank_append {s t : List Char} (blank : ∀ c ∈ t, isBlank c = true) :
    trim (t ++ s) = trim s := by
  rw [trim, trim, trimBy, trimBy, List.dropWhile_append_of_pos blank]

/-! ## Parts of a text -/

/-- A part of a text that can be read on its own. -/
structure Excerpt (text : List Char) where
  front : List Char
  part : List Char
  tail : List Char
  split : text = front ++ (part ++ tail)
  edge : front.getLast?.any isWord = false
  closing : ClosingTail tail
  closed : ')' ∈ tail → closing? 1 0 part = none ∧ height part = 0

namespace Excerpt

variable {text : List Char} (e : Excerpt text) {a b : List Char}

/-- A place in the part is a place in the whole text. -/
theorem embeds (place : e.part = a ++ b) : Place.Embeds e.front.length e.tail
    (.between (e.front ++ a) (b ++ e.tail)) (.between a b) := by
  refine ⟨rfl, by simp [Place.between, Nat.add_comm], ?_⟩
  rcases List.eq_nil_or_concat a with rfl | ⟨a, c, rfl⟩
  · simpa [Place.between] using e.edge
  · simp [Place.between, ← List.append_assoc]

/-- A tail without a closing parenthesis is blank. -/
theorem blank_of_not_mem {tail : List Char} (closing : ClosingTail tail) (absent : ')' ∉ tail) :
    ∀ c ∈ tail, isBlank c = true := by
  have whole : ClosingTail (tail ++ []) := by rwa [List.append_nil]
  exact (whole.isBlank_of_append absent).1

/-- A parenthesis that an excerpt leaves open is left open in the whole text. -/
theorem not_mem_of_closing?_eq_none (place : e.part = a ++ '(' :: b)
    (none : closing? 0 0 ('(' :: b) = none) : ')' ∉ e.tail := by
  intro closed
  obtain ⟨unclosed, level⟩ := e.closed closed
  rw [place] at unclosed level
  exact closing?_ne_none unclosed level none

/-- A parenthesis in an excerpt is closed there as in the whole text. -/
theorem closing?_eq (place : e.part = a ++ '(' :: b) :
    closing? 0 0 ('(' :: b ++ e.tail) = closing? 0 0 ('(' :: b) := by
  rw [closing?_append]
  cases inner : closing? 0 0 ('(' :: b) with
  | some n => rfl
  | none =>
    rw [closing?_eq_none_of_not_mem (e.not_mem_of_closing?_eq_none place inner)]
    rfl

end Excerpt

/-- The query in a parenthesis, as an excerpt behind the parenthesis and some blanks. -/
structure Enclosure (text : List Char) extends Excerpt text where
  outside : List Char
  lead : List Char
  front_eq : front = outside ++ '(' :: lead
  blank : ∀ c ∈ lead, isBlank c = true
  starts : Spells "SELECT" (leading part)
  unclosed : closing? 1 0 part = none

end QueryWorkbench.Analysis
