/-
QueryWorkbench.Proofs.Analysis.Cleared — the normal form of scrubbed text.

Scrubbing puts a text together again from what it keeps: the code around comments and literals, the
names taken out of their quotes, and a space for each run of blanks. The result is in normal form
for every text (`normalForm_scrub`): no comment starts in it, quotes come two by two, and blanks are
single spaces inside.

## How the proof goes

`Cleared` are the texts in which no comment starts and quotes come two by two. It is an inductive
predicate and not a statement about all positions, because each step of scrubbing goes through a
text from left to right and each can then be followed constructor by constructor. Stripping leaves a
cleared text of anything, from any region on (`cleared_strip`). Unquoting and squeezing keep a text
cleared (`Unquoted.cleared`, `cleared_squeeze`). What `Cleared` says about all positions is proved
once, from the predicate (`not_line_infix`, `not_block_infix`, `run_length`).

## What has to be watched

A step that takes characters away may bring two others together that make a mark. Behind a quote, a
dash or a slash that is kept, the next character that is kept must be known, so every step has a
lemma about the first character of what it leaves (`head?_strip_code`, `Unquoted.head?`,
`head?_squeeze`). Stripping inside a literal is special, in that what is left then must not start
with a quote, or the emptied literal would run into the next one; `cleared_strip` says both at once.
-/
import QueryWorkbench.Proofs.Analysis.Enclosed
import QueryWorkbench.Proofs.Sql.Normal

namespace QueryWorkbench.Analysis

open Text

variable {c : Char} {s t : List Char}

/-! ## Neighbours in a text -/

theorem pair_infix_cons {x y : Char} :
    [x, y] <:+: c :: s ↔ (c = x ∧ s.head? = some y) ∨ [x, y] <:+: s := by
  rw [List.infix_cons_iff, List.cons_prefix_cons]
  refine or_congr (and_congr eq_comm ?_) Iff.rfl
  cases s <;> simp [List.cons_prefix_cons, eq_comm]

theorem getLast?_ne_of_append {d : Char} {w : List Char} (last : (w ++ s).getLast? ≠ some d) :
    s.getLast? ≠ some d := fun same => last (by rw [List.getLast?_append, same]; rfl)

/-! ## Texts without comments and without the content of literals -/

/-- A text in which no comment starts and in which quotes come two by two. -/
inductive Cleared : List Char → Prop
  | nil : Cleared []
  | char {c : Char} {s : List Char} (code : c ≠ '\x27') (line : c = '-' → s.head? ≠ some '-')
      (block : c = '/' → s.head? ≠ some '*') : Cleared s → Cleared (c :: s)
  | literal {s : List Char} (ended : s.head? ≠ some '\x27') :
      Cleared s → Cleared ('\x27' :: '\x27' :: s)

namespace Cleared

/-- A character that is part of no mark can stand in front of anything. -/
theorem cons_plain (plain : c ≠ '\x27' ∧ c ≠ '-' ∧ c ≠ '/') (h : Cleared s) : Cleared (c :: s) :=
  .char plain.1 (fun dash => absurd dash plain.2.1) (fun slash => absurd slash plain.2.2) h

theorem append_plain {w : List Char} (plain : ∀ c ∈ w, c ≠ '\x27' ∧ c ≠ '-' ∧ c ≠ '/')
    (h : Cleared s) : Cleared (w ++ s) := by
  induction w with
  | nil => exact h
  | cons c w ih =>
    exact (ih fun d hd => plain d (List.mem_cons_of_mem _ hd)).cons_plain
      (plain c (List.mem_cons_self ..))

theorem tail (h : Cleared (c :: s)) (code : c ≠ '\x27') : Cleared s := by
  cases h with
  | char _ _ _ rest => exact rest
  | literal => exact absurd rfl code

theorem of_append {w : List Char} (h : Cleared (w ++ s)) (code : ∀ c ∈ w, c ≠ '\x27') :
    Cleared s := by
  induction w with
  | nil => exact h
  | cons c w ih =>
    exact ih (h.tail (code c (List.mem_cons_self ..))) fun d hd =>
      code d (List.mem_cons_of_mem _ hd)

/-! ### What is nowhere in such a text -/

theorem not_line_infix (h : Cleared s) : ¬ ['-', '-'] <:+: s := by
  induction h with
  | nil => simp
  | char _ line _ _ ih =>
    rintro found
    rcases pair_infix_cons.mp found with ⟨dash, next⟩ | found
    · exact line dash next
    · exact ih found
  | literal _ _ ih => simpa [pair_infix_cons] using ih

theorem not_block_infix (h : Cleared s) : ¬ ['/', '*'] <:+: s := by
  induction h with
  | nil => simp
  | char _ _ block _ ih =>
    rintro found
    rcases pair_infix_cons.mp found with ⟨slash, next⟩ | found
    · exact block slash next
    · exact ih found
  | literal _ _ ih => simpa [pair_infix_cons] using ih

/-- A run of quotes that goes on neither to the left nor to the right has two of them. -/
theorem run_length (h : Cleared s) {before after : List Char} {n : Nat} (some : 0 < n)
    (split : s = before ++ (List.replicate n '\x27' ++ after))
    (left : before.getLast? ≠ .some '\x27') (right : after.head? ≠ .some '\x27') : n = 2 := by
  obtain ⟨n, rfl⟩ : ∃ m, n = m + 1 := ⟨n - 1, by omega⟩
  induction h generalizing before with
  | nil => simp at split
  | char code _ _ _ ih =>
    cases before with
    | nil => exact absurd (List.cons.inj split).1 code
    | cons b before => exact ih (getLast?_ne_of_append (w := [b]) left) (List.cons.inj split).2
  | literal ended _ ih =>
    cases before with
    | nil =>
      have more := (List.cons.inj split).2
      cases n with
      | zero =>
        obtain rfl : '\x27' :: _ = after := more
        exact absurd rfl right
      | succ n =>
        have rest := (List.cons.inj more).2
        cases n with
        | zero => rfl
        | succ n => exact absurd (by rw [rest]; rfl) ended
    | cons b before =>
      obtain ⟨rfl, more⟩ := List.cons.inj split
      cases before with
      | nil => exact absurd rfl left
      | cons e before =>
        exact ih (getLast?_ne_of_append (w := [_, e]) left) (List.cons.inj more).2

end Cleared

/-! ## Stripping -/

/-- Behind a line comment goes on the line break, if anything. -/
theorem head?_strip_lineComment (first : (strip .lineComment [] s).head? = some c) : c = '\n' := by
  induction s with
  | nil => cases first
  | cons d s ih =>
    rw [strip_cons] at first
    dsimp only at first
    split at first
    · rw [strip_eq] at first
      exact (Option.some.inj first).symm
    · exact ih first

/-- What is kept of code starts as the code does, or with what is left of a comment. -/
theorem head?_strip_code (first : (strip .code [] s).head? = some c) (solid : isBlank c = false) :
    s.head? = some c := by
  have outside {d : Char} (blank : isBlank d = true) : c ≠ d := by
    rintro rfl
    rw [blank] at solid
    cases solid
  cases s with
  | nil => cases first
  | cons d s =>
    rw [strip_cons] at first
    dsimp only at first
    split at first
    · rename_i quote
      rw [strip_eq] at first
      exact quote ▸ first
    split at first
    · exact absurd (head?_strip_lineComment first) (outside (by decide))
    split at first
    · rw [strip_eq] at first
      exact absurd (Option.some.inj first).symm (outside (by decide))
    · rw [strip_eq] at first
      exact first

/-- What is kept behind the start of a literal does not go on with a quote, and what stripping
leaves is clear. -/
theorem cleared_strip (region : Region) (s : List Char) : Cleared (strip region [] s) ∧
    (region = .literal → (strip region [] s).head? ≠ some '\x27') := by
  -- A step takes one character or two, so the induction is on the length.
  induction length : s.length using Nat.strongRecOn generalizing region s with
  | ind n ih =>
    subst length
    cases s with
    | nil => cases region <;> exact ⟨.nil, by simp [strip]⟩
    | cons c s =>
      have one (region : Region) := ih s.length (Nat.lt_succ_self _) region s rfl
      have shorter : s.tail.length < (c :: s).length := by
        rw [List.length_tail, List.length_cons]
        omega
      have two (region : Region) := ih s.tail.length shorter region s.tail rfl
      rw [strip_cons]
      cases region with
      | code =>
        refine ⟨?_, fun same => absurd same (by decide)⟩
        dsimp only
        split
        · rw [strip_eq]
          exact .literal ((one .literal).2 rfl) (one .literal).1
        split
        · exact (two .lineComment).1
        split
        · rw [strip_eq]
          exact (two .blockComment).1.cons_plain (by decide)
        · rename_i literal line block
          rw [strip_eq]
          exact .char literal
            (fun dash next => line ⟨dash, head?_strip_code next (by decide)⟩)
            (fun slash next => block ⟨slash, head?_strip_code next (by decide)⟩) (one .code).1
      | literal =>
        dsimp only
        split
        · split
          · exact two .literal
          · rename_i ended
            exact ⟨(one .code).1, fun _ first => ended (head?_strip_code first (by decide))⟩
        · exact one .literal
      | lineComment =>
        refine ⟨?_, fun same => absurd same (by decide)⟩
        dsimp only
        split
        · rw [strip_eq]
          exact (one .code).1.cons_plain (by decide)
        · exact (one .lineComment).1
      | blockComment =>
        refine ⟨?_, fun same => absurd same (by decide)⟩
        dsimp only
        split
        · exact (two .code).1
        · exact (one .blockComment).1

/-! ## Unquoting -/

/-- A text and what is left of it when some of its names lose their quotes. -/
inductive Unquoted : List Char → List Char → Prop
  | nil : Unquoted [] []
  | keep (c : Char) {s t : List Char} : Unquoted s t → Unquoted (c :: s) (c :: t)
  | name {opening closing : Char} {w s t : List Char}
      (quotes : closingQuote? opening = some closing) (nonempty : w ≠ [])
      (word : ∀ c ∈ w, isWord c = true) :
      Unquoted s t → Unquoted (opening :: (w ++ closing :: s)) (w ++ t)

theorem exists_unquoted (skipped : Nat) (done s : List Char) :
    ∃ t, unquoteNames skipped done s = done.reverse ++ t ∧ Unquoted (s.drop skipped) t := by
  fun_induction unquoteNames skipped done s with
  | case1 => exact ⟨[], by simp, by rw [List.drop_nil]; exact .nil⟩
  | case2 _ _ _ _ ih => exact ih
  | case3 done c rest _ ih =>
    obtain ⟨t, kept, unquoted⟩ := ih
    exact ⟨c :: t, by rw [kept]; simp, .keep c unquoted⟩
  | case4 done c rest quote quotes name closed ih =>
    obtain ⟨t, kept, unquoted⟩ := ih
    rw [Bool.and_eq_true, beq_iff_eq, Bool.not_eq_true', List.isEmpty_eq_false_iff] at closed
    obtain ⟨more, behind⟩ := List.head?_eq_some_iff.mp closed.2
    have split : name ++ rest.drop name.length = rest :=
      List.prefix_iff_eq_append.mp (List.takeWhile_prefix isWord)
    have rest_unquoted : Unquoted more t := by
      rwa [← List.drop_drop, behind, List.drop_one, List.tail_cons] at unquoted
    refine ⟨name ++ t, by rw [kept]; simp, ?_⟩
    rw [List.drop_zero, ← split, behind]
    exact .name quotes closed.1 (fun _ => List.all_eq_true.mp List.all_takeWhile _) rest_unquoted
  | case5 done c rest _ _ _ _ ih =>
    obtain ⟨t, kept, unquoted⟩ := ih
    exact ⟨c :: t, by rw [kept]; simp, .keep c unquoted⟩

theorem unquoted_unquoteNames (s : List Char) : Unquoted s (unquoteNames 0 [] s) := by
  obtain ⟨t, kept, unquoted⟩ := exists_unquoted 0 [] s
  rwa [kept]

namespace Unquoted

theorem append (w : List Char) (h : Unquoted s t) : Unquoted (w ++ s) (w ++ t) := by
  induction w with
  | nil => exact h
  | cons c w ih => exact .keep c ih

/-- What is left starts with a name or as the text did. -/
theorem head? (h : Unquoted s t) (first : t.head? = some c) (outside : isWord c = false) :
    s.head? = some c := by
  cases h with
  | nil => cases first
  | keep => exact first
  | name _ nonempty word _ =>
    obtain ⟨d, w, rfl⟩ := List.exists_cons_of_ne_nil nonempty
    obtain rfl : d = c := Option.some.inj first
    rw [word d (List.mem_cons_self ..)] at outside
    cases outside

theorem exists_of_cons (h : Unquoted (c :: s) t) (unquotable : closingQuote? c = none) :
    ∃ r, t = c :: r ∧ Unquoted s r := by
  cases h with
  | keep _ rest => exact ⟨_, rfl, rest⟩
  | name quotes => cases unquotable.symm.trans quotes

/-- The characters between a name's quotes are kept, so no two others come together. -/
theorem cleared (h : Unquoted s t) (clear : Cleared s) : Cleared t := by
  have plain {c : Char} (word : isWord c = true) : c ≠ '\x27' ∧ c ≠ '-' ∧ c ≠ '/' := by
    have plain := isPlain_of_isWord word
    simp only [isPlain, Bool.and_eq_true, bne_iff_ne] at plain
    simp [plain]
  induction clear generalizing t with
  | nil =>
    cases h
    exact .nil
  | char code line block _ ih =>
    cases h with
    | keep _ rest =>
      exact .char code (fun dash next => line dash (rest.head? next (by decide)))
        (fun slash next => block slash (rest.head? next (by decide))) (ih rest)
    | @name _ closing w _ t quotes _ word rest =>
      have quoted : Cleared (w ++ closing :: t) := ih ((keep closing rest).append w)
      have behind := quoted.of_append fun c hc => (plain (word c hc)).1
      refine .append_plain (fun c hc => plain (word c hc)) (behind.tail ?_)
      rintro rfl
      rw [closingQuote?] at quotes
      split at quotes
      · cases quotes
      · split at quotes
        · exact code (Option.some.inj quotes)
        · cases quotes
  | literal ended _ ih =>
    obtain ⟨_, rfl, more⟩ := h.exists_of_cons (by decide)
    obtain ⟨_, rfl, rest⟩ := more.exists_of_cons (by decide)
    exact .literal (fun first => ended (rest.head? first (by decide))) (ih rest)

end Unquoted

/-! ## Squeezing and trimming -/

theorem head?_squeeze (first : (squeeze s).head? = some c) (solid : isBlank c = false) :
    s.head? = some c := by
  cases s with
  | nil => cases first
  | cons d s =>
    rw [squeeze_cons, squeezeOnto] at first
    split at first
    · have space : c = ' ' := by
        split at first
        · rename_i spaced
          rw [spaced] at first
          exact (Option.some.inj first).symm
        · exact (Option.some.inj first).symm
      rw [space] at solid
      cases solid
    · exact first

theorem cleared_squeeze (h : Cleared s) : Cleared (squeeze s) := by
  induction h with
  | nil => exact .nil
  | char code line block _ ih =>
    rw [squeeze_cons, squeezeOnto]
    split
    · split
      · exact ih
      · exact ih.cons_plain (by decide)
    · exact .char code (fun dash next => line dash (head?_squeeze next (by decide)))
        (fun slash next => block slash (head?_squeeze next (by decide))) ih
  | literal ended _ ih =>
    have solid : ¬ isBlank '\x27' = true := by decide
    rw [squeeze_cons, squeeze_cons, squeezeOnto, if_neg solid, squeezeOnto, if_neg solid]
    exact .literal (fun first => ended (head?_squeeze first (by decide))) ih

theorem blanks_of_squeezed (squeezed : squeeze s = s) :
    (∀ c ∈ s, isBlank c = true → c = ' ') ∧ ¬ [' ', ' '] <:+: s := by
  induction s with
  | nil => simp
  | cons c s ih =>
    obtain ⟨rest, first⟩ := Sql.squeeze_cons_eq_self_iff.mp squeezed
    obtain ⟨blanks, apart⟩ := ih rest
    refine ⟨List.forall_mem_cons.mpr ⟨fun blank => (first blank).1, blanks⟩, fun found => ?_⟩
    rcases pair_infix_cons.mp found with ⟨rfl, next⟩ | found
    · exact (first (by decide)).2 next
    · exact apart found

theorem getLast?_trim (s : List Char) : (trim s).getLast?.any isBlank = false := by
  rw [trim, trimBy, List.getLast?_reverse]
  exact head?_dropWhile_any isBlank _

theorem head?_trim (s : List Char) : (trim s).head?.any isBlank = false := by
  have first := head?_dropWhile_any isBlank s
  have split : s.dropWhile isBlank =
      trim s ++ ((s.dropWhile isBlank).reverse.takeWhile isBlank).reverse := by
    rw [trim, trimBy, ← List.reverse_append, List.takeWhile_append_dropWhile, List.reverse_reverse]
  rw [split] at first
  cases kept : trim s with
  | nil => rfl
  | cons c r =>
    rw [kept] at first
    exact first

/-! ## Scrubbed text -/

/-- Text in which no comment starts, quotes come two by two, and blanks are single spaces between
other characters. -/
structure NormalForm (s : List Char) : Prop where
  noLineComment : ¬ "--".toList <:+: s
  noBlockComment : ¬ "/*".toList <:+: s
  runs : ∀ before after n, s = before ++ (List.replicate n '\x27' ++ after) → 0 < n →
    before.getLast? ≠ some '\x27' → after.head? ≠ some '\x27' → n = 2
  blanks : ∀ c ∈ s, isBlank c = true → c = ' '
  apart : ¬ "  ".toList <:+: s
  first : s.head? ≠ some ' '
  last : s.getLast? ≠ some ' '

/-- Trimming a squeezed text without comments and without the content of literals gives its normal
form. -/
theorem Cleared.normalForm_trim (h : Cleared s) (squeezed : squeeze s = s) :
    NormalForm (trim s) := by
  obtain ⟨lead, trail, split, lead_blank, trail_blank⟩ := exists_trim s
  obtain ⟨blanks, apart⟩ := blanks_of_squeezed squeezed
  have inside : trim s <:+: s := ⟨lead, trail, by rw [List.append_assoc, ← split]⟩
  have edge {c : Char} (blank : isBlank c = true) : c ≠ '\x27' := by
    rintro rfl
    cases blank
  refine ⟨fun found => h.not_line_infix (found.trans inside),
    fun found => h.not_block_infix (found.trans inside), ?_,
    fun c hc => blanks c (inside.subset hc), fun found => apart (found.trans inside), ?_, ?_⟩
  · intro before after n here some left right
    have whole : s = (lead ++ before) ++ (List.replicate n '\x27' ++ (after ++ trail)) := by
      rw [split, here]
      simp only [List.append_assoc]
    refine h.run_length some whole ?_ ?_
    · rcases List.eq_nil_or_concat before with rfl | ⟨w, c, rfl⟩
      · rw [List.append_nil]
        exact fun last => edge (lead_blank _ (List.mem_of_getLast? last)) rfl
      · rw [List.concat_eq_append] at left ⊢
        rwa [← List.append_assoc, List.getLast?_concat, ← List.getLast?_concat (l := w)]
    · cases after with
      | nil => exact fun first => edge (trail_blank _ (List.mem_of_head? first)) rfl
      | cons c after => exact right
  · intro first
    have outside := head?_trim s
    rw [first] at outside
    cases outside
  · intro last
    have outside := getLast?_trim s
    rw [last] at outside
    cases outside

/-- Whatever the text, scrubbing brings it into normal form. -/
theorem normalForm_scrub (s : String) : NormalForm (scrub s).toList := by
  rw [scrub, String.toList_ofList, scrubChars]
  have stripped := (cleared_strip .code s.toList).1
  have unquoted := (unquoted_unquoteNames _).cleared stripped
  exact (cleared_squeeze unquoted).normalForm_trim (Sql.squeeze_squeeze _)

end QueryWorkbench.Analysis
