/-
QueryWorkbench.Proofs.Analysis.Scrubbing — what scrubbing leaves of generated text.

`Bares s b` relates a text to what stripping and unquoting leave of it: literals are emptied, and
names come out of their quotes. `Tidy` are the texts that squeezing and trimming leave alone. Both
are kept when texts are put together, so that a scrubbed text is known part by part.
-/
import QueryWorkbench.Analysis.Scrub
import QueryWorkbench.Proofs.Text.Words
import QueryWorkbench.Sql.Dialect
import QueryWorkbench.Sql.Literal

namespace QueryWorkbench.Analysis

open Text

/-! ## Stripping and unquoting -/

/-- A character that starts no comment, literal or quoted name. -/
def isPlain (c : Char) : Bool :=
  c != '\x27' && c != '-' && c != '/' && c != '[' && c != '\x60' && c != '\x22'

theorem isPlain_of_isWord {c : Char} (h : isWord c = true) : isPlain c = true := by
  refine Decidable.byContradiction fun special => ?_
  have listed : c = '\x27' ∨ c = '-' ∨ c = '/' ∨ c = '[' ∨ c = '\x60' ∨ c = '\x22' := by
    simpa [isPlain, Classical.or_iff_not_imp_left] using special
  rcases listed with rfl | rfl | rfl | rfl | rfl | rfl <;> exact absurd h (by decide)

/-- A text, and what is left of it without the content of its literals and the quotes of its
names. -/
inductive Bares : List Char → List Char → Prop
  | nil : Bares [] []
  | plain {c : Char} {s b : List Char} (h : isPlain c = true) : Bares s b → Bares (c :: s) (c :: b)
  | dash {s b : List Char} (alone : s.head? ≠ some '-') : Bares s b → Bares ('-' :: s) ('-' :: b)
  | literal {x s b : List Char} (ended : s.head? ≠ some '\x27') :
      Bares s b → Bares (Sql.textLiteralChars x ++ s) ('\x27' :: '\x27' :: b)
  | name {d : Dialect} {w s b : List Char} (nonempty : w ≠ []) (word : ∀ c ∈ w, isWord c = true) :
      Bares s b → Bares (d.quoteChars w ++ s) (w ++ b)

/-- Code is kept character by character. -/
theorem strip_code_cons {c : Char} {done s : List Char} (literal : c ≠ '\x27') (slash : c ≠ '/')
    (dash : c = '-' → s.head? ≠ some '-') :
    strip .code done (c :: s) = strip .code (c :: done) s := by
  rw [strip.eq_def]
  split <;> simp_all

theorem strip_plain {w done s : List Char} (plain : ∀ c ∈ w, c ≠ '\x27' ∧ c ≠ '/' ∧ c ≠ '-') :
    strip .code done (w ++ s) = strip .code (w.reverse ++ done) s := by
  induction w generalizing done with
  | nil => rfl
  | cons c w ih =>
    obtain ⟨literal, slash, dash⟩ := plain c (List.mem_cons_self ..)
    rw [List.cons_append, strip_code_cons literal slash fun same => absurd same dash,
      ih fun d hd => plain d (List.mem_cons_of_mem _ hd), List.reverse_cons, List.append_assoc]
    rfl

/-- The content of a literal is left out up to the quote that ends it. -/
theorem strip_literal {x done s : List Char} (ended : s.head? ≠ some '\x27') :
    strip .literal done (doubled '\x27' x ++ '\x27' :: s) = strip .code done s := by
  induction x with
  | nil =>
    rw [doubled, List.nil_append]
    cases s with
    | nil => simp [strip]
    | cons d s =>
      have other : d ≠ '\x27' := fun same => ended (congrArg some same)
      simp [strip, other]
  | cons c x ih =>
    by_cases quote : c = '\x27'
    · rw [doubled, if_pos quote, List.cons_append, List.cons_append, strip, ih]
    · rw [doubled, if_neg quote, List.cons_append, strip.eq_def]
      split <;> simp_all

theorem unquoteNames_skip {w done s : List Char} :
    unquoteNames w.length done (w ++ s) = unquoteNames 0 done s := by
  induction w with
  | nil => rfl
  | cons c w ih => rw [List.cons_append, List.length_cons, unquoteNames, ih]

/-- A quote does not belong to a word. -/
theorem doubled_closing {d : Dialect} {w : List Char} (word : ∀ c ∈ w, isWord c = true) :
    doubled d.closing w = w := by
  have outside : isWord d.closing = false := by cases d <;> decide
  induction w with
  | nil => rfl
  | cons c w ih =>
    have other : c ≠ d.closing := by
      rintro rfl
      rw [word _ (List.mem_cons_self ..)] at outside
      cases outside
    rw [doubled, if_neg other, ih fun e he => word e (List.mem_cons_of_mem _ he)]

/-- A quoted name is taken out of its quotes. -/
theorem unquoteNames_name {d : Dialect} {w done s : List Char} (nonempty : w ≠ [])
    (word : ∀ c ∈ w, isWord c = true) :
    unquoteNames 0 done (d.opening :: (w ++ d.closing :: s)) =
      unquoteNames 0 (w.reverse ++ done) s := by
  have quote : closingQuote? d.opening = some d.closing := by cases d <;> rfl
  have outside : isWord d.closing = false := by cases d <;> decide
  have taken : (w ++ d.closing :: s).takeWhile isWord = w :=
    leading_append_of_all word (by simpa using outside)
  have some : (!w.isEmpty && ((w ++ d.closing :: s).drop w.length).head? == some d.closing) =
      true := by
    simp [nonempty]
  have passed : w ++ d.closing :: s = (w ++ [d.closing]) ++ s := by simp
  have length : w.length + 1 = (w ++ [d.closing]).length := by simp
  rw [unquoteNames, quote]
  simp only [taken]
  rw [if_pos some, length, passed, unquoteNames_skip]

namespace Bares

variable {s b : List Char}

theorem exists_stripped (h : Bares s b) :
    ∃ m, (∀ done, strip .code done s = done.reverse ++ m) ∧
      ∀ done, unquoteNames 0 done m = done.reverse ++ b := by
  induction h with
  | nil => exact ⟨[], by simp [strip], by simp [unquoteNames]⟩
  | @plain c s b plain _ ih =>
    obtain ⟨m, stripped, unquoted⟩ := ih
    have special : c ≠ '\x27' ∧ c ≠ '-' ∧ c ≠ '/' ∧ closingQuote? c = none := by
      simp only [isPlain, Bool.and_eq_true, bne_iff_ne] at plain
      simp [closingQuote?, plain]
    refine ⟨c :: m, fun done => ?_, fun done => ?_⟩
    · rw [strip_code_cons special.1 special.2.2.1 fun same => absurd same special.2.1, stripped]
      simp
    · rw [unquoteNames, special.2.2.2]
      simp [unquoted]
  | @dash s b alone _ ih =>
    obtain ⟨m, stripped, unquoted⟩ := ih
    refine ⟨'-' :: m, fun done => ?_, fun done => ?_⟩
    · rw [strip_code_cons (by decide) (by decide) fun _ => alone, stripped]
      simp
    · have none : closingQuote? '-' = none := by decide
      rw [unquoteNames, none]
      simp [unquoted]
  | @literal x s b ended _ ih =>
    obtain ⟨m, stripped, unquoted⟩ := ih
    refine ⟨'\x27' :: '\x27' :: m, fun done => ?_, fun done => ?_⟩
    · rw [Sql.textLiteralChars, List.cons_append, List.append_assoc, List.singleton_append, strip,
        strip_literal ended, stripped]
      simp
    · have none : closingQuote? '\x27' = none := by decide
      rw [unquoteNames, none]
      simp [unquoteNames, none, unquoted]
  | @name d w s b nonempty word _ ih =>
    obtain ⟨m, stripped, unquoted⟩ := ih
    have quoted : d.quoteChars w = d.opening :: (w ++ [d.closing]) := by
      rw [Dialect.quoteChars, doubled_closing word]
    have plain : ∀ c ∈ d.opening :: (w ++ [d.closing]), c ≠ '\x27' ∧ c ≠ '/' ∧ c ≠ '-' := by
      intro c hc
      rw [List.mem_cons, List.mem_append, List.mem_singleton] at hc
      rcases hc with rfl | hc | rfl
      · cases d <;> decide
      · have inside := isPlain_of_isWord (word c hc)
        simp only [isPlain, Bool.and_eq_true, bne_iff_ne] at inside
        simp [inside]
      · cases d <;> decide
    refine ⟨d.opening :: (w ++ d.closing :: m), fun done => ?_, fun done => ?_⟩
    · rw [quoted, strip_plain plain, stripped]
      simp
    · rw [unquoteNames_name nonempty word, unquoted]
      simp

/-- Stripping and unquoting leave what the parts of a text leave. -/
theorem unquoteNames_strip (h : Bares s b) : unquoteNames 0 [] (strip .code [] s) = b := by
  obtain ⟨m, stripped, unquoted⟩ := h.exists_stripped
  rw [stripped, List.reverse_nil, List.nil_append, unquoted]
  rfl

/-- Texts one after the other, unless what comes second goes on with a dash or a literal. -/
theorem append {r c : List Char} (h : Bares s b) (k : Bares r c) (dash : r.head? ≠ some '-')
    (quote : r.head? ≠ some '\x27') : Bares (s ++ r) (b ++ c) := by
  induction h with
  | nil => exact k
  | plain plain _ ih => exact .plain plain ih
  | @dash s b alone _ ih =>
    refine .dash ?_ ih
    cases s with
    | nil => exact dash
    | cons d s => exact alone
  | @literal x s b ended _ ih =>
    rw [List.append_assoc]
    refine .literal ?_ ih
    cases s with
    | nil => exact quote
    | cons d s => exact ended
  | name nonempty word _ ih =>
    rw [List.append_assoc, List.append_assoc]
    exact .name nonempty word ih

end Bares

/-- Plain characters in front are kept. -/
theorem Bares.plain_append {w s b : List Char} (plain : ∀ c ∈ w, isPlain c = true)
    (h : Bares s b) : Bares (w ++ s) (w ++ b) := by
  induction w with
  | nil => exact h
  | cons c w ih =>
    exact .plain (plain c (List.mem_cons_self ..)) (ih fun d hd => plain d (List.mem_cons_of_mem _ hd))

theorem bares_of_plain {s : List Char} (plain : ∀ c ∈ s, isPlain c = true) : Bares s s := by
  have bares := Bares.plain_append plain .nil
  rwa [List.append_nil] at bares

/-! ## Squeezing and trimming -/

/-- A text that neither starts nor ends with a blank, and in which only single spaces are blank. -/
structure Tidy (s : List Char) : Prop where
  nonempty : s ≠ []
  first : s.head?.any isBlank = false
  last : s.getLast?.any isBlank = false
  squeezed : squeeze s = s

instance (s : List Char) : Decidable (Tidy s) :=
  decidable_of_iff (s ≠ [] ∧ s.head?.any isBlank = false ∧ s.getLast?.any isBlank = false ∧
    squeeze s = s) ⟨fun ⟨a, b, c, d⟩ => ⟨a, b, c, d⟩, fun ⟨a, b, c, d⟩ => ⟨a, b, c, d⟩⟩

theorem length_squeeze_le (s : List Char) : (squeeze s).length ≤ s.length := by
  induction s with
  | nil => exact Nat.le_refl 0
  | cons c s ih =>
    rw [squeeze_cons, squeezeOnto, List.length_cons]
    split
    · split
      · omega
      · rw [List.length_cons]
        omega
    · rw [List.length_cons]
      omega

/-- A squeezed text that does not end with a blank is squeezed as well in front of other text. -/
theorem squeeze_append {s r : List Char} (last : s.getLast?.any isBlank = false)
    (squeezed : squeeze s = s) : squeeze (s ++ r) = s ++ squeeze r := by
  induction s with
  | nil => rfl
  | cons c s ih =>
    rw [squeeze_cons, squeezeOnto] at squeezed
    rw [List.cons_append, squeeze_cons, squeezeOnto]
    by_cases blank : isBlank c = true
    · rw [if_pos blank] at squeezed ⊢
      have more : s ≠ [] := by
        rintro rfl
        rw [List.getLast?_singleton] at last
        simp [blank] at last
      have last_s : s.getLast?.any isBlank = false := by
        rwa [List.getLast?_cons_of_ne_nil more] at last
      split at squeezed
      · have le := length_squeeze_le s
        rw [squeezed, List.length_cons] at le
        omega
      · rename_i other
        obtain ⟨rfl, squeezed_s⟩ := List.cons.inj squeezed
        have edge : (s ++ squeeze r).head? ≠ some ' ' := by
          rw [squeezed_s] at other
          cases s with
          | nil => exact absurd rfl more
          | cons d s => exact other
        rw [ih last_s squeezed_s, if_neg edge, List.cons_append]
    · rw [if_neg blank] at squeezed ⊢
      have last_s : s.getLast?.any isBlank = false := by
        cases s with
        | nil => rfl
        | cons d s => exact last
      rw [ih last_s (List.cons.inj squeezed).2, List.cons_append]

namespace Tidy

variable {s t : List Char}

theorem squeeze_append (h : Tidy s) (r : List Char) : squeeze (s ++ r) = s ++ squeeze r :=
  Analysis.squeeze_append h.last h.squeezed

theorem append (h : Tidy s) (k : Tidy t) : Tidy (s ++ t) := by
  refine ⟨fun none => h.nonempty (List.append_eq_nil_iff.mp none).1, ?_, ?_, ?_⟩
  · obtain ⟨c, s, rfl⟩ := List.exists_cons_of_ne_nil h.nonempty
    exact h.first
  · have last := k.last
    rw [List.getLast?_append, List.getLast?_eq_some_getLast k.nonempty]
    rwa [List.getLast?_eq_some_getLast k.nonempty] at last
  · rw [h.squeeze_append, k.squeezed]

/-- A space in front of what is tidy becomes one space, and so does any other gap. -/
theorem squeeze_gap (h : Tidy s) (r : List Char) {g : List Char} (some : g ≠ [])
    (blank : ∀ c ∈ g, isBlank c = true) :
    squeeze (g ++ (s ++ r)) = ' ' :: (s ++ squeeze r) := by
  have edge : (s ++ squeeze r).head? ≠ Option.some ' ' := by
    have first := h.first
    obtain ⟨c, s, rfl⟩ := List.exists_cons_of_ne_nil h.nonempty
    rintro ⟨⟩
    cases first
  induction g with
  | nil => exact absurd rfl some
  | cons c g ih =>
    rw [List.cons_append, squeeze_cons, squeezeOnto, if_pos (blank c (List.mem_cons_self ..))]
    by_cases more : g = []
    · rw [more, List.nil_append, h.squeeze_append, if_neg edge]
    · rw [ih more fun d hd => blank d (List.mem_cons_of_mem _ hd), List.head?_cons, if_pos rfl]

theorem space (h : Tidy s) (k : Tidy t) : Tidy (s ++ ' ' :: t) := by
  refine ⟨fun none => h.nonempty (List.append_eq_nil_iff.mp none).1, ?_, ?_, ?_⟩
  · obtain ⟨c, s, rfl⟩ := List.exists_cons_of_ne_nil h.nonempty
    exact h.first
  · have last := k.last
    rw [List.getLast?_append, List.getLast?_cons, List.getLast?_eq_some_getLast k.nonempty]
    rwa [List.getLast?_eq_some_getLast k.nonempty] at last
  · have gap := k.squeeze_gap [] (g := [' ']) (by simp) (by decide)
    rw [List.append_nil, squeeze_nil, List.append_nil] at gap
    rw [h.squeeze_append]
    exact congrArg (s ++ ·) gap

end Tidy

theorem tidy_of_all {s : List Char} (nonempty : s ≠ []) (all : ∀ c ∈ s, isBlank c = false) :
    Tidy s := by
  have squeezed : squeeze s = s := by
    clear nonempty
    induction s with
    | nil => rfl
    | cons c s ih =>
      have outside : ¬ isBlank c = true := Bool.eq_false_iff.mp (all c (List.mem_cons_self ..))
      rw [squeeze_cons, squeezeOnto, if_neg outside, ih fun d hd => all d (List.mem_cons_of_mem _ hd)]
  refine ⟨nonempty, ?_, ?_, squeezed⟩
  · obtain ⟨c, s, rfl⟩ := List.exists_cons_of_ne_nil nonempty
    exact all c (List.mem_cons_self ..)
  · rw [List.getLast?_eq_some_getLast nonempty]
    exact all _ (List.getLast_mem nonempty)

/-- A text with no blank at its ends is not trimmed. -/
theorem trim_eq {s : List Char} (first : s.head?.any isBlank = false)
    (last : s.getLast?.any isBlank = false) : trim s = s := by
  have kept : ∀ {t : List Char}, t.head?.any isBlank = false → t.dropWhile isBlank = t := by
    intro t first
    cases t with
    | nil => rfl
    | cons c t =>
      have outside : ¬ isBlank c = true := Bool.eq_false_iff.mp first
      exact List.dropWhile_cons_of_neg outside
  have reversed : s.reverse.head?.any isBlank = false := by rwa [List.head?_reverse]
  rw [trim, trimBy, kept first, kept reversed, List.reverse_reverse]

end QueryWorkbench.Analysis
