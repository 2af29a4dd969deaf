/-
QueryWorkbench.Proofs.Sql.LiteralReading — literals read back.

`readLiteral?` reads one literal from the start of a text: NULL, a decimal number, a text in quotes,
or literals in parentheses with commas between them. Of a value that is made of null, integers,
texts and lists it reads the literal to its end and gives the value back, at every depth of nesting
and whatever is written in the texts. So two such values with one literal are the same
(`readLiteral?_literal`).

## How the proof goes

The first character tells which kind of literal it is: a quote, a letter, a parenthesis, a digit or
a minus sign. Each kind has a lemma about reading it with any text behind it (`readNull?_append`,
`readInteger?_append`, `readText?_append`). Lists are read by recursion with fuel, of which the
literal's own length is enough. The induction is on the value, mutual with that on the items
(`readsBack_of_elementary`, `readItems?_literals`); what is read back is `ReadsBack`, with any text
behind and any fuel that suffices, since an item has the rest of its list behind it.

## The side conditions

* `Elementary`: a truth value is written as a number and an object as a text, and neither could be
  told from these.
* No letter or digit stands behind a literal, and no quote, or it would be read as part of it. In
  generated text a blank, a comma or a parenthesis does.
-/
import QueryWorkbench.Proofs.Text.Quotation
import QueryWorkbench.Proofs.Text.Words
import QueryWorkbench.Sql.Literal
import QueryWorkbench.Text.Integer

namespace QueryWorkbench

/-- A value made of null, integers, texts and lists of such values. -/
inductive Json.Elementary : Json → Prop
  | null : Elementary .null
  | int (n : Int) : Elementary (.int n)
  | text (s : String) : Elementary (.str s)
  | list {items : List Json} : (∀ v ∈ items, Elementary v) → Elementary (.arr items)

namespace Sql

open Text

variable {fuel : Nat} {t rest : List Char}

/-! ## Reading -/

/-- Reads the word that a text starts with, if it is NULL. -/
def readNull? (t : List Char) : Option (Json × List Char) :=
  if t.takeWhile Char.isAlphanum = "NULL".toList then some (.null, t.dropWhile Char.isAlphanum)
  else none

/-- Reads the digits that a text starts with, at least one. -/
def readNatural? (t : List Char) : Option (Nat × List Char) :=
  if t.takeWhile Char.isDigit = [] then none
  else some (Nat.ofDigitChars 10 (t.takeWhile Char.isDigit) 0, t.dropWhile Char.isDigit)

/-- Reads a decimal number with a sign or without. -/
def readInteger? (t : List Char) : Option (Json × List Char) :=
  (readNatural? (splitSign t).2).map fun (n, rest) => (.int (signed (splitSign t).1 n), rest)

/-- Reads a text in single quotes. -/
def readText? (t : List Char) : Option (Json × List Char) :=
  (quotation? '\x27' '\x27' t).map fun (s, rest) => (.str (String.ofList s), rest)

mutual

/-- Reads a literal; the first character tells which kind it is of. -/
def readValue? : Nat → List Char → Option (Json × List Char)
  | 0, _ => none
  | fuel + 1, t =>
    match t with
    | '\x27' :: _ => readText? t
    | 'N' :: _ => readNull? t
    | '(' :: ')' :: rest => some (.arr [], rest)
    | '(' :: rest => (readItems? fuel rest).map fun (items, rest) => (.arr items, rest)
    | _ => readInteger? t

/-- Reads the literals of a list, at least one, up to the closing parenthesis. -/
def readItems? : Nat → List Char → Option (List Json × List Char)
  | 0, _ => none
  | fuel + 1, t =>
    match readValue? fuel t with
    | some (v, ')' :: rest) => some ([v], rest)
    | some (v, ',' :: rest) =>
      (readItems? fuel (rest.dropWhile (· = ' '))).map fun (items, rest) => (v :: items, rest)
    | _ => none

end

/-- Reads one literal: the value, and what is behind it. Every literal, item and parenthesis takes
at least one character, so the length of the text is fuel enough. -/
def readLiteral? (t : List Char) : Option (Json × List Char) := readValue? (t.length + 1) t

/-! ## Single literals -/

theorem readNull?_append (edge : rest.head?.any Char.isAlphanum = false) :
    readNull? ("NULL".toList ++ rest) = some (.null, rest) := by
  have letters : ∀ c ∈ "NULL".toList, c.isAlphanum = true := List.all_eq_true.mp (by decide)
  rw [readNull?, takeWhile_append_of_all letters edge, dropWhile_append_of_all letters edge,
    if_pos rfl]

theorem readNatural?_append (n : Nat) (edge : rest.head?.any Char.isDigit = false) :
    readNatural? (n.repr.toList ++ rest) = some (n, rest) := by
  have digits : ∀ c ∈ Nat.toDigits 10 n, c.isDigit = true := fun _ hc =>
    Nat.isDigit_of_mem_toDigits (by decide) (by decide) hc
  rw [readNatural?, Nat.toList_repr, takeWhile_append_of_all digits edge,
    dropWhile_append_of_all digits edge, if_neg Nat.toDigits_ne_nil,
    Nat.ofDigitChars_ten_toDigits]

/-- What is written for a natural number starts with a digit. -/
theorem exists_cons_repr (n : Nat) : ∃ c s, n.repr.toList = c :: s ∧ c.isDigit = true := by
  rw [Nat.toList_repr]
  obtain ⟨c, s, split⟩ := List.exists_cons_of_ne_nil (Nat.toDigits_ne_nil (n := n) (b := 10))
  have digit := Nat.isDigit_of_mem_toDigits (b := 10) (n := n) (c := c) (by decide) (by decide)
  exact ⟨c, s, split, digit (split ▸ List.mem_cons_self ..)⟩

theorem toList_toString_integer (n : Int) : (toString n).toList =
    if 0 ≤ n then n.toNat.repr.toList else '-' :: (-n).toNat.repr.toList := by
  rw [Int.toString_eq_repr, Int.repr_eq_if]
  split
  · rfl
  · rw [String.toList_append]
    rfl

theorem exists_cons_toString (n : Int) : ∃ c s, (toString n).toList = c :: s ∧
    (c = '-' ∨ c.isDigit = true) := by
  rw [toList_toString_integer]
  split
  · obtain ⟨c, s, split, digit⟩ := exists_cons_repr n.toNat
    exact ⟨c, s, split, Or.inr digit⟩
  · exact ⟨'-', _, rfl, Or.inl rfl⟩

theorem readInteger?_append (n : Int) (edge : rest.head?.any Char.isDigit = false) :
    readInteger? ((toString n).toList ++ rest) = some (.int n, rest) := by
  rw [toList_toString_integer]
  split
  · rename_i positive
    obtain ⟨c, s, split, digit⟩ := exists_cons_repr n.toNat
    have unsigned :
        splitSign (n.toNat.repr.toList ++ rest) = (false, n.toNat.repr.toList ++ rest) := by
      rw [split, List.cons_append, splitSign.eq_def]
      split
      · simp_all
      · simp_all
      · rfl
    rw [readInteger?, unsigned, readNatural?_append _ edge, Option.map_some]
    simp [signed, Int.toNat_of_nonneg positive]
  · rename_i negative
    have positive : 0 ≤ -n := by omega
    rw [List.cons_append, readInteger?, splitSign, readNatural?_append _ edge, Option.map_some]
    simp [signed, Int.toNat_of_nonneg positive]

theorem readText?_append (s : String) (ended : rest.head? ≠ some '\x27') :
    readText? ((textLiteral s).toList ++ rest) = some (.str s, rest) := by
  have quoted : (textLiteral s).toList ++ rest =
      '\x27' :: (doubled '\x27' s.toList ++ '\x27' :: rest) := by
    simp [textLiteral, textLiteralChars]
  rw [readText?, quoted, quotation?_eq_some_iff.mpr ⟨rfl, ended⟩]
  simp only [Option.map_some, String.ofList_toList]

/-! ## Values -/

/-- The first character of a number tells it from the other literals. -/
theorem readValue?_eq_readInteger? {c : Char} (first : c = '-' ∨ c.isDigit = true) :
    readValue? (fuel + 1) (c :: t) = readInteger? (c :: t) := by
  have other {k : Char} (special : k ≠ '-' ∧ k.isDigit = false) : c ≠ k := by
    rintro rfl
    simp_all
  have quote := other (k := '\x27') (by decide)
  have letter := other (k := 'N') (by decide)
  have opening := other (k := '(') (by decide)
  rw [readValue?.eq_def]
  simp only
  split <;> simp_all

/-- No literal starts with a space or with a closing parenthesis. -/
theorem readValue?_eq_none {c : Char} (outside : c = ' ' ∨ c = ')') :
    readValue? fuel (c :: t) = none := by
  cases fuel with
  | zero => rw [readValue?]
  | succ fuel =>
    rcases outside with rfl | rfl <;>
      simp [readValue?, readInteger?, readNatural?, splitSign]

theorem head?_of_readItems? {x : List Json × List Char} (read : readItems? fuel t = some x) :
    t.head? ≠ some ' ' ∧ t.head? ≠ some ')' := by
  have first {c : Char} (outside : c = ' ' ∨ c = ')') : t.head? ≠ some c := by
    intro first
    obtain ⟨s, rfl⟩ := List.head?_eq_some_iff.mp first
    cases fuel with
    | zero => rw [readItems?] at read; cases read
    | succ fuel => rw [readItems?, readValue?_eq_none outside] at read; cases read
  exact ⟨first (Or.inl rfl), first (Or.inr rfl)⟩

/-- The literal of a value is read to its end, unless what is behind it goes on with it. -/
def ReadsBack (v : Json) : Prop :=
  ∀ fuel rest, (literal v).toList.length ≤ fuel → rest.head?.any Char.isAlphanum = false →
    rest.head? ≠ some '\x27' → readValue? (fuel + 1) ((literal v).toList ++ rest) = some (v, rest)

theorem readItems?_literals {items : List Json} (nonempty : items ≠ [])
    (each : ∀ v ∈ items, ReadsBack v) (rest : List Char)
    (enough : (", ".intercalate (literals items)).toList.length < fuel) :
    readItems? (fuel + 1) ((", ".intercalate (literals items)).toList ++ ')' :: rest) =
      some (items, rest) := by
  induction items generalizing fuel with
  | nil => exact absurd rfl nonempty
  | cons v items ih =>
    obtain ⟨fuel, rfl⟩ : ∃ n, fuel = n + 1 := ⟨fuel - 1, by omega⟩
    have first := each v (List.mem_cons_self ..) fuel
    cases items with
    | nil =>
      rw [literals, literals, String.intercalate_singleton] at enough ⊢
      rw [readItems?, first (')' :: rest) (by omega) rfl (by simp)]
      rfl
    | cons w items =>
      have split : (", ".intercalate (literals (v :: w :: items))).toList =
          (literal v).toList ++
            ',' :: ' ' :: (", ".intercalate (literals (w :: items))).toList := by
        simp [literals, String.intercalate_cons_cons]
      rw [split, List.length_append, List.length_cons, List.length_cons] at enough
      have shorter : (", ".intercalate (literals (w :: items))).toList.length < fuel := by omega
      have more :=
        ih (List.cons_ne_nil _ _) (fun u hu => each u (List.mem_cons_of_mem _ hu)) shorter
      rw [split, List.append_assoc, List.cons_append, List.cons_append]
      generalize (", ".intercalate (literals (w :: items))).toList ++ ')' :: rest = t at more
      have spaces : (' ' :: t).dropWhile (· = ' ') = t := by
        have edge := (head?_of_readItems? more).1
        rw [List.dropWhile_cons_of_pos (by decide)]
        cases t with
        | nil => rfl
        | cons c t => exact List.dropWhile_cons_of_neg (by simpa using edge)
      rw [readItems?, first (',' :: ' ' :: t) (by omega) rfl (by simp)]
      simp only [spaces, more, Option.map_some]

/-- The literals of all values made of null, integers, texts and lists are read back. -/
theorem readsBack_of_elementary {v : Json} (h : v.Elementary) : ReadsBack v := by
  induction h with
  | null => exact fun _ _ _ edge _ => readNull?_append edge
  | int n =>
    intro fuel rest _ edge _
    have digits : rest.head?.any Char.isDigit = false := by
      cases rest with
      | nil => rfl
      | cons c rest => exact (Bool.or_eq_false_iff.mp edge).2
    obtain ⟨c, s, split, first⟩ := exists_cons_toString n
    have read := readInteger?_append n digits
    rw [literal]
    rw [split, List.cons_append] at read ⊢
    rw [readValue?_eq_readInteger? first, read]
  | text s =>
    intro fuel rest _ _ ended
    have read := readText?_append s ended
    have split : (textLiteral s).toList = '\x27' :: (doubled '\x27' s.toList ++ ['\x27']) := by
      rw [textLiteral, String.toList_ofList, textLiteralChars]
    rw [literal]
    rw [split, List.cons_append] at read ⊢
    exact read
  | @list items _ ih =>
    intro fuel rest enough _ _
    have split : (literal (.arr items)).toList =
        '(' :: ((", ".intercalate (literals items)).toList ++ [')']) := by
      simp [literal]
    rw [split, List.length_cons, List.length_append, List.length_singleton] at enough
    rw [split, List.cons_append, List.append_assoc, List.singleton_append]
    by_cases empty : items = []
    · rw [empty, literals, String.intercalate_nil]
      rfl
    · obtain ⟨fuel, rfl⟩ : ∃ n, fuel = n + 1 := ⟨fuel - 1, by omega⟩
      have shorter : (", ".intercalate (literals items)).toList.length < fuel := by omega
      have read := readItems?_literals empty ih rest shorter
      generalize (", ".intercalate (literals items)).toList ++ ')' :: rest = t at read
      rw [readValue?]
      · rw [read]
        rfl
      · rintro s rfl
        exact (head?_of_readItems? read).2 rfl

/-! ## Literals in a text -/

/-- Reading gives back the value of a literal and the text behind it, if that does not begin with
a digit, a letter or a quote; so two texts that start with literals are the same only where the
values and what is behind them are. -/
theorem readLiteral?_literal :
    (∀ v : Json, v.Elementary → ∀ rest : List Char, rest.head?.any Char.isAlphanum = false →
      rest.head? ≠ some '\x27' → readLiteral? ((literal v).toList ++ rest) = some (v, rest)) ∧
    ∀ v w : Json, v.Elementary → w.Elementary → ∀ r s : List Char,
      r.head?.any Char.isAlphanum = false → r.head? ≠ some '\x27' →
      s.head?.any Char.isAlphanum = false → s.head? ≠ some '\x27' →
      (literal v).toList ++ r = (literal w).toList ++ s → v = w ∧ r = s := by
  have reads (v : Json) (h : v.Elementary) (rest : List Char)
      (edge : rest.head?.any Char.isAlphanum = false) (ended : rest.head? ≠ some '\x27') :
      readLiteral? ((literal v).toList ++ rest) = some (v, rest) :=
    readsBack_of_elementary h _ rest (by rw [List.length_append]; omega) edge ended
  refine ⟨reads, fun v w hv hw r s edge_r ended_r edge_s ended_s same => ?_⟩
  have read := reads v hv r edge_r ended_r
  rw [same, reads w hw s edge_s ended_s] at read
  obtain ⟨rfl, rfl⟩ := Prod.mk.inj (Option.some.inj read)
  exact ⟨rfl, rfl⟩

/-- A list in a list, an empty list, an empty text, and a text that looks like the end of its own
list with more items behind it. -/
def tricky : Json := .arr [.null, .str "it's'), (NULL, 7", .arr [], .arr [.int (-12), .str ""]]

theorem elementary_tricky : tricky.Elementary := by
  refine .list fun v hv => ?_
  simp only [List.mem_cons, List.not_mem_nil, or_false] at hv
  rcases hv with rfl | rfl | rfl | rfl
  · exact .null
  · exact .text _
  · exact .list (by simp)
  · refine .list fun v hv => ?_
    simp only [List.mem_cons, List.not_mem_nil, or_false] at hv
    rcases hv with rfl | rfl
    · exact .int _
    · exact .text _

theorem readLiteral?_literal_tricky :
    let behind := " AND o.`id` IN (NULL, 7)".toList
    tricky.Elementary ∧ (Json.str "").Elementary ∧
      literal tricky = "(NULL, 'it''s''), (NULL, 7', (), (-12, ''))" ∧
      readLiteral? ((literal tricky).toList ++ behind) = some (tricky, behind) ∧
      ∀ s : List Char, s.head? = some ' ' →
        (literal tricky).toList ++ behind ≠ (literal (.str "")).toList ++ s := by
  intro behind
  have edge : behind.head?.any Char.isAlphanum = false := by decide
  have ended : behind.head? ≠ some '\x27' := by decide
  refine ⟨elementary_tricky, .text _, by decide +kernel,
    readLiteral?_literal.1 _ elementary_tricky _ edge ended, fun s space same => ?_⟩
  have equal := readLiteral?_literal.2 _ _ elementary_tricky (.text "") _ s edge ended
    (by rw [space]; rfl) (by rw [space]; decide) same
  cases equal.1

end Sql

end QueryWorkbench
