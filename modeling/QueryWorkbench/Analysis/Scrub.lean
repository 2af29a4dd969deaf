/-
QueryWorkbench.Analysis.Scrub — SQL text made ready for scanning.

Comments are removed, text literals emptied, names taken out of their quotes and blanks squeezed,
so that nothing in a comment or a literal can look like SQL. Every step goes over the text once.
-/
import QueryWorkbench.Text.Blank
import QueryWorkbench.Text.Word

namespace QueryWorkbench.Analysis

open Text

/-- What a character of SQL text is part of. -/
inductive Region where
  | code
  | literal
  | lineComment
  | blockComment
deriving DecidableEq

/-- Removes comments and the content of literals; `done` is what is kept so far, the latest
first. A block comment becomes a space; a line comment ends before the line break; inside a
literal two quotes stand for one. -/
def strip : Region → (done : List Char) → List Char → List Char
  | _, done, [] => done.reverse
  | .code, done, '\x27' :: rest => strip .literal ('\x27' :: '\x27' :: done) rest
  | .code, done, '-' :: '-' :: rest => strip .lineComment done rest
  | .code, done, '/' :: '*' :: rest => strip .blockComment (' ' :: done) rest
  | .code, done, c :: rest => strip .code (c :: done) rest
  | .literal, done, '\x27' :: '\x27' :: rest => strip .literal done rest
  | .literal, done, '\x27' :: rest => strip .code done rest
  | .literal, done, _ :: rest => strip .literal done rest
  | .lineComment, done, '\n' :: rest => strip .code ('\n' :: done) rest
  | .lineComment, done, _ :: rest => strip .lineComment done rest
  | .blockComment, done, '*' :: '/' :: rest => strip .code done rest
  | .blockComment, done, _ :: rest => strip .blockComment done rest

/-- What a character does to a text is decided by the next one at most. -/
theorem strip_cons (region : Region) (done : List Char) (c : Char) (s : List Char) :
    strip region done (c :: s) =
      match region with
      | .code =>
        if c = '\x27' then strip .literal ('\x27' :: '\x27' :: done) s
        else if c = '-' ∧ s.head? = some '-' then strip .lineComment done s.tail
        else if c = '/' ∧ s.head? = some '*' then strip .blockComment (' ' :: done) s.tail
        else strip .code (c :: done) s
      | .literal =>
        if c = '\x27' then
          if s.head? = some '\x27' then strip .literal done s.tail else strip .code done s
        else strip .literal done s
      | .lineComment =>
        if c = '\n' then strip .code ('\n' :: done) s else strip .lineComment done s
      | .blockComment =>
        if c = '*' ∧ s.head? = some '/' then strip .code done s.tail
        else strip .blockComment done s := by
  rw [strip.eq_def]
  split
  case h_5 literal line block same =>
    obtain ⟨rfl, rfl⟩ := List.cons.inj same
    have line' : ¬ (c = '-' ∧ s.head? = some '-') := fun ⟨first, next⟩ =>
      (List.head?_eq_some_iff.mp next).elim fun rest => line rest first
    have block' : ¬ (c = '/' ∧ s.head? = some '*') := fun ⟨first, next⟩ =>
      (List.head?_eq_some_iff.mp next).elim fun rest => block rest first
    rw [if_neg literal, if_neg line', if_neg block']
  all_goals simp_all [List.head?_eq_some_iff]

/-- What is kept already does not matter for what comes next. -/
theorem strip_append (region : Region) (done kept s : List Char) :
    strip region (done ++ kept) s = kept.reverse ++ strip region done s := by
  fun_induction strip region done s with
  | case1 => simp [strip]
  | _ => simp_all [strip]

theorem strip_eq (region : Region) (done s : List Char) :
    strip region done s = done.reverse ++ strip region [] s :=
  strip_append region [] done s

/-- The quote that ends a quoted name, by the quote that starts it. -/
def closingQuote? (c : Char) : Option Char :=
  if c = '[' then some ']' else if c = '\x60' || c = '\x22' then some c else none

/-- Takes names made of word characters out of their quotes; the next `skipped` characters are
dealt with already. -/
def unquoteNames (skipped : Nat) (done : List Char) : List Char → List Char
  | [] => done.reverse
  | c :: rest =>
    match skipped with
    | n + 1 => unquoteNames n done rest
    | 0 =>
      match closingQuote? c with
      | none => unquoteNames 0 (c :: done) rest
      | some quote =>
        let name := rest.takeWhile isWord
        if !name.isEmpty && (rest.drop name.length).head? == some quote then
          unquoteNames (name.length + 1) (name.reverse ++ done) rest
        else unquoteNames 0 (c :: done) rest

/-- SQL text ready for scanning, as characters. -/
def scrubChars (s : List Char) : List Char :=
  trim (squeeze (unquoteNames 0 [] (strip .code [] s)))

/-- SQL text ready for scanning. -/
def scrub (s : String) : String := String.ofList (scrubChars s.toList)

end QueryWorkbench.Analysis
