/-
QueryWorkbench.Proofs.Sql.Literal — the literals of all values are harmless.

Scrubbing empties text literals, and what it leaves of other literals are numbers and NULL, with
commas and parentheses around the items of lists. None of this is a word of a table or of a
condition, and every parenthesis is closed.
-/
import QueryWorkbench.Proofs.Sql.Scrubbed

namespace QueryWorkbench.Sql

open Analysis Text

/-! ## Numbers -/

/-- The characters that numbers without signs are written with. -/
def figures : List Char := "0123456789.e+naif".toList

theorem mem_figures_of_isDigit {c : Char} (h : c.isDigit = true) : c ∈ figures := by
  have bounds := Char.isDigit_iff_toNat.mp h
  have all : ∀ n < 58, 48 ≤ n → Char.ofNat n ∈ figures := by decide
  have digit := all c.toNat (Nat.lt_succ_of_le bounds.2) bounds.1
  rwa [Char.ofNat_toNat] at digit

theorem isPlain_of_mem_figures : ∀ c ∈ figures, isPlain c = true ∧ c ≠ '-' := by decide

/-- A number. A dash in it is not followed by another one. -/
structure Numeral (s : List Char) : Prop where
  nonempty : s ≠ []
  bares : Bares s s
  chars : ∀ c ∈ s, c ∈ '-' :: figures

/-- A number without a sign in front. -/
structure Magnitude (s : List Char) : Prop extends Numeral s where
  unsigned : s.head? ≠ some '-'

/-- A text made of the characters of numbers is harmless. -/
theorem Numeral.harmless {s : List Char} (h : Numeral s) : Harmless s := by
  have calm : ∀ c ∈ '-' :: figures, isBlank c = false ∧ c ≠ '(' ∧ c ≠ ')' := by decide
  have letters : ∀ c ∈ '-' :: figures, keywordLetter c ∉ ['l', 'o', 'r'] := by decide
  exact ⟨s, h.bares, tidy_of_all h.nonempty fun c hc => (calm c (h.chars c hc)).1,
    balanced_of_calm fun c hc => (calm c (h.chars c hc)).2,
    lacks_of_absent (by decide) fun c hc => letters c (h.chars c hc)⟩

theorem magnitude_of_figures {s : List Char} (nonempty : s ≠ []) (all : ∀ c ∈ s, c ∈ figures) :
    Magnitude s := by
  refine ⟨⟨nonempty, bares_of_plain fun c hc => (isPlain_of_mem_figures c (all c hc)).1,
    fun c hc => List.mem_cons_of_mem _ (all c hc)⟩, fun dash => ?_⟩
  exact (isPlain_of_mem_figures '-' (all '-' (List.mem_of_head? dash))).2 rfl

/-- A number with the sign in front. -/
theorem Magnitude.negative {s : List Char} (h : Magnitude s) : Numeral ('-' :: s) := by
  refine ⟨List.cons_ne_nil _ _, .dash h.unsigned h.bares, fun c hc => ?_⟩
  rcases List.mem_cons.mp hc with rfl | hc
  · exact List.mem_cons_self ..
  · exact h.chars c hc

/-! ### Integers -/

theorem mem_figures_of_mem_toDigits {n : Nat} : ∀ c ∈ Nat.toDigits 10 n, c ∈ figures := fun _ hc =>
  mem_figures_of_isDigit (Nat.isDigit_of_mem_toDigits (by decide) (by decide) hc)

theorem magnitude_repr (n : Nat) : Magnitude n.repr.toList := by
  rw [Nat.toList_repr]
  exact magnitude_of_figures Nat.toDigits_ne_nil mem_figures_of_mem_toDigits

theorem harmless_natural (n : Nat) : Harmless (toString n).toList := (magnitude_repr n).harmless

theorem numeral_integer (n : Int) : Numeral (toString n).toList := by
  rw [Int.toString_eq_repr, Int.repr_eq_if]
  split
  · exact (magnitude_repr n.toNat).toNumeral
  · rw [String.toList_append]
    exact (magnitude_repr (-n).toNat).negative

/-! ### Doubles -/

section

open Decimal

theorem mem_figures_of_mem_replicate {n : Nat} : ∀ c ∈ List.replicate n '0', c ∈ figures := by
  intro c hc
  rw [List.eq_of_mem_replicate hc]
  decide

variable {digits : List Char} (all : ∀ c ∈ digits, c ∈ figures)
include all

theorem magnitude_positional (point : Int) : Magnitude (positional digits point) := by
  have zero : '0' ∈ figures := by decide
  have dot : '.' ∈ figures := by decide
  rw [positional]
  split
  · refine magnitude_of_figures (List.cons_ne_nil _ _) fun c hc => ?_
    simp only [List.mem_cons, List.mem_append] at hc
    rcases hc with rfl | rfl | hc | hc
    · exact zero
    · exact dot
    · exact mem_figures_of_mem_replicate c hc
    · exact all c hc
  · split
    · refine magnitude_of_figures (by simp) fun c hc => ?_
      simp only [List.mem_cons, List.mem_append, List.not_mem_nil, or_false] at hc
      rcases hc with (hc | hc) | rfl | rfl
      · exact all c hc
      · exact mem_figures_of_mem_replicate c hc
      · exact dot
      · exact zero
    · refine magnitude_of_figures (by simp) fun c hc => ?_
      rcases List.mem_append.mp hc with hc | hc
      · exact all c (List.mem_of_mem_take hc)
      · rcases List.mem_cons.mp hc with rfl | hc
        · exact dot
        · exact all c (List.mem_of_mem_drop hc)

omit all in
/-- A number with an exponent behind it. -/
theorem magnitude_exponent {front power : List Char} {sign : Char} (nonempty : front ≠ [])
    (front_all : ∀ c ∈ front, c ∈ figures) (h : Magnitude power) (signed : sign = '-' ∨ sign = '+') :
    Magnitude (front ++ 'e' :: sign :: power) := by
  have bares : Bares (sign :: power) (sign :: power) := by
    rcases signed with rfl | rfl
    · exact .dash h.unsigned h.bares
    · exact .plain (by decide) h.bares
  refine ⟨⟨by simp, (bares.plain (by decide)).plain_append fun c hc =>
    (isPlain_of_mem_figures c (front_all c hc)).1, fun c hc => ?_⟩, ?_⟩
  · simp only [List.mem_append, List.mem_cons] at hc
    rcases hc with hc | rfl | rfl | hc
    · exact List.mem_cons_of_mem _ (front_all c hc)
    · decide
    · rcases signed with rfl | rfl <;> decide
    · exact h.chars c hc
  · obtain ⟨c, front, rfl⟩ := List.exists_cons_of_ne_nil nonempty
    rintro ⟨⟩
    exact (isPlain_of_mem_figures '-' (front_all '-' (List.mem_cons_self ..))).2 rfl

theorem magnitude_scientific (style : Style) (point : Int) (nonempty : digits ≠ []) :
    Magnitude (scientific style digits point) := by
  rw [scientific]
  refine magnitude_exponent (by simp [nonempty]) (fun c hc => ?_)
    (magnitude_of_figures (by simp [Nat.toDigits_ne_nil]) fun c hc => ?_) ?_
  · rcases List.mem_append.mp hc with hc | hc
    · exact all c (List.mem_of_mem_take hc)
    · split at hc
      · cases hc
      · rcases List.mem_cons.mp hc with rfl | hc
        · decide
        · exact all c (List.mem_of_mem_drop hc)
  · rcases List.mem_append.mp hc with hc | hc
    · exact mem_figures_of_mem_replicate c hc
    · exact mem_figures_of_mem_toDigits c hc
  · split
    · exact Or.inl rfl
    · exact Or.inr rfl

end

/-- What is written for a double is a number, with a sign or without. -/
theorem numeral_float (x : Float) : Numeral (Decimal.ofFloat x).toList := by
  have nan : Magnitude "nan".toList := magnitude_of_figures (by decide) (by decide)
  have infinite : Magnitude "inf".toList := magnitude_of_figures (by decide) (by decide)
  have zero : Magnitude "0.0".toList := magnitude_of_figures (by decide) (by decide)
  have sign_cases : (if x.toBits >>> 63 = 1 then "-" else "") = "-" ∨
      (if x.toBits >>> 63 = 1 then "-" else "") = "" := by
    split
    · exact Or.inl rfl
    · exact Or.inr rfl
  rw [Decimal.ofFloat]
  generalize (if x.toBits >>> 63 = 1 then "-" else "") = sign at sign_cases ⊢
  have signed {s : String} (h : Magnitude s.toList) : Numeral (sign ++ s).toList := by
    rw [String.toList_append]
    rcases sign_cases with rfl | rfl
    · exact h.negative
    · exact h.toNumeral
  split
  · exact nan.toNumeral
  · split
    · exact signed infinite
    · split
      · exact signed zero
      · refine signed ?_
        rw [String.toList_ofList, Decimal.Digits.written]
        split
        · exact magnitude_positional mem_figures_of_mem_toDigits _
        · exact magnitude_scientific mem_figures_of_mem_toDigits _ _ Nat.toDigits_ne_nil

/-! ## Texts and lists -/

/-- A text literal is emptied. -/
theorem harmless_textLiteral (x : List Char) : Harmless (textLiteralChars x) := by
  have bares : Bares (textLiteralChars x ++ []) ['\x27', '\x27'] := .literal (by simp) .nil
  rw [List.append_nil] at bares
  exact ⟨_, bares, by decide, balanced_of_calm (by decide), by decide⟩

mutual

/-- The literal of every value is harmless. -/
theorem harmless_literal : ∀ v : Json, Harmless (literal v).toList
  | .null => by
    have word : Quiet "NULL".toList := by decide
    rw [literal]
    exact word.harmless
  | .bool b => by
    have digits : Quiet "1".toList ∧ Quiet "0".toList := by decide
    rw [literal]
    cases b with
    | true => exact digits.1.harmless
    | false => exact digits.2.harmless
  | .int n => by
    rw [literal]
    exact (numeral_integer n).harmless
  | .num x => by
    rw [literal]
    exact (numeral_float x).harmless
  | .str s => by
    rw [literal, textLiteral, String.toList_ofList]
    exact harmless_textLiteral s.toList
  | .arr items => by
    rw [literal, String.toList_append, String.toList_append]
    rcases harmless_literals items with rfl | harmless
    · rw [literals, String.intercalate_nil]
      exact harmless_empty
    · exact harmless.parens
  | .obj members => by
    rw [literal, textLiteral, String.toList_ofList]
    exact harmless_textLiteral _

/-- So are those of all items of a list, with commas between them. -/
theorem harmless_literals : ∀ items : List Json,
    items = [] ∨ Harmless (", ".intercalate (literals items)).toList
  | [] => Or.inl rfl
  | [v] => by
    rw [literals, literals, String.intercalate_singleton]
    exact Or.inr (harmless_literal v)
  | v :: w :: rest => by
    have more := (harmless_literals (w :: rest)).resolve_left (List.cons_ne_nil _ _)
    rw [literals] at more ⊢
    rw [literals, String.intercalate_cons_cons, String.toList_append, String.toList_append,
      List.append_assoc]
    exact Or.inr ((harmless_literal v).comma more)

end

end QueryWorkbench.Sql
