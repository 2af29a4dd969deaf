/-
QueryWorkbench.Proofs.Analysis.Unseen — what stands in comments and literals is not seen.

`EndsIn` says what the end of a text is part of, and each text ends in something (`exists_endsIn`).
Behind a text that ends in code a comment may say anything, and so may a literal: the scrubbed text
is the one without the comment, and the one with any other literal (`scrub_unseen`).

## How the proof goes

`EndsIn` goes through a text piece by piece, each comment and each literal being one piece, in the
way that stripping does. By induction over the pieces, stripping such a text leaves something that
does not depend on what comes next (`EndsIn.exists_strip`). A comment or a literal behind it is then
left out up to its own end by one lemma for each kind (`strip_lineComment`, `strip_blockComment`,
`strip_quoted`), whatever other marks stand in it. What scrubbing does after stripping is the same
on both sides (`scrub_congr`).

## The side conditions

* The text in front ends in code and not with a quote, a dash or a slash, which would make a mark
  together with the first character of the comment or literal.
* A comment does not hold its own end.
* A literal has its quotes doubled (`Paired`), and no quote stands behind it, which would make a
  doubled one of its end.
-/
import QueryWorkbench.Proofs.Analysis.Cleared
import QueryWorkbench.Proofs.Text.Quotation

namespace QueryWorkbench.Analysis

open Text

variable {x s done : List Char}

/-! ## Stripping a comment or a literal -/

theorem strip_quoted (paired : Paired '\x27' x) (ended : s.head? ≠ some '\x27') :
    strip .code done ('\x27' :: (x ++ '\x27' :: s)) = strip .code ('\x27' :: '\x27' :: done) s := by
  obtain ⟨y, rfl⟩ := paired_iff.mp paired
  rw [strip, strip_literal ended]

theorem strip_lineComment (line : '\n' ∉ x) :
    strip .lineComment done (x ++ '\n' :: s) = strip .code ('\n' :: done) s := by
  induction x with
  | nil => simp [strip]
  | cons c x ih =>
    have inside : c ≠ '\n' := fun same => line (same ▸ List.mem_cons_self ..)
    rw [List.cons_append, strip_cons]
    dsimp only
    rw [if_neg inside, ih fun later => line (List.mem_cons_of_mem _ later)]

theorem strip_blockComment (block : ¬ ['*', '/'] <:+: x) :
    strip .blockComment done (x ++ '*' :: '/' :: s) = strip .code done s := by
  induction x with
  | nil => simp [strip]
  | cons c x ih =>
    rw [pair_infix_cons, not_or] at block
    -- the mark that ends the comment does not start with the last character in it
    have inside : ¬ (c = '*' ∧ (x ++ '*' :: '/' :: s).head? = some '/') := by
      rintro ⟨star, next⟩
      cases x with
      | nil => cases next
      | cons d x => exact block.1 ⟨star, next⟩
    rw [List.cons_append, strip_cons]
    dsimp only
    rw [if_neg inside, ih block.2]

/-! ## Where a text ends -/

/-- A text, and what its end is part of: code behind ended literals and comments, or a literal or
a comment that is not ended. -/
inductive EndsIn : Region → List Char → Prop
  | nil : EndsIn .code []
  | openLiteral {x : List Char} (paired : Paired '\x27' x) : EndsIn .literal ('\x27' :: x)
  | openLineComment {x : List Char} (line : '\n' ∉ x) : EndsIn .lineComment ('-' :: '-' :: x)
  | openBlockComment {x : List Char} (block : ¬ ['*', '/'] <:+: x) :
      EndsIn .blockComment ('/' :: '*' :: x)
  | code {region : Region} {c : Char} {s : List Char} (literal : c ≠ '\x27')
      (line : c = '-' → s.head? ≠ some '-') (block : c = '/' → s.head? ≠ some '*') :
      EndsIn region s → EndsIn region (c :: s)
  | literal {region : Region} {x s : List Char} (paired : Paired '\x27' x)
      (ended : s.head? ≠ some '\x27') :
      EndsIn region s → EndsIn region ('\x27' :: (x ++ '\x27' :: s))
  | lineComment {region : Region} {x s : List Char} (line : '\n' ∉ x) :
      EndsIn region s → EndsIn region ('-' :: '-' :: (x ++ '\n' :: s))
  | blockComment {region : Region} {x s : List Char} (block : ¬ ['*', '/'] <:+: x) :
      EndsIn region s → EndsIn region ('/' :: '*' :: (x ++ '*' :: '/' :: s))

/-- A pair of characters is somewhere for the first time. -/
theorem exists_first_of_pair_infix {y z : Char} (found : [y, z] <:+: s) :
    ∃ x r, s = x ++ y :: z :: r ∧ ¬ [y, z] <:+: x := by
  induction s with
  | nil => simp at found
  | cons c s ih =>
    by_cases here : c = y ∧ s.head? = some z
    · obtain ⟨r, behind⟩ := List.head?_eq_some_iff.mp here.2
      exact ⟨[], r, by rw [here.1, behind]; rfl, by simp⟩
    · obtain ⟨x, r, rfl, before⟩ := ih ((pair_infix_cons.mp found).resolve_left here)
      refine ⟨c :: x, r, rfl, fun found => ?_⟩
      rcases pair_infix_cons.mp found with ⟨first, next⟩ | found
      · refine here ⟨first, ?_⟩
        rw [List.head?_append, next]
        rfl
      · exact before found

/-- Each text ends in something. -/
theorem exists_endsIn (s : List Char) : ∃ region, EndsIn region s := by
  induction length : s.length using Nat.strongRecOn generalizing s with
  | ind n ih =>
    subst length
    match s with
    | [] => exact ⟨_, .nil⟩
    | c :: s =>
      by_cases literal : c = '\x27'
      · subst literal
        cases read : untilQuote? '\x27' s with
        | none => exact ⟨_, .openLiteral (paired_of_untilQuote? read)⟩
        | some found =>
          obtain ⟨x, r⟩ := found
          obtain ⟨rfl, ended⟩ := eq_doubled_of_untilQuote? read
          obtain ⟨region, rest⟩ := ih r.length (by simp; omega) r rfl
          exact ⟨region, .literal (paired_doubled x) ended rest⟩
      by_cases line : c = '-' ∧ s.head? = some '-'
      · obtain ⟨rfl, next⟩ := line
        obtain ⟨s, rfl⟩ := List.head?_eq_some_iff.mp next
        by_cases ended : '\n' ∈ s
        · obtain ⟨x, r, rfl, before⟩ := List.eq_append_cons_of_mem ended
          obtain ⟨region, rest⟩ := ih r.length (by simp; omega) r rfl
          exact ⟨region, .lineComment before rest⟩
        · exact ⟨_, .openLineComment ended⟩
      by_cases block : c = '/' ∧ s.head? = some '*'
      · obtain ⟨rfl, next⟩ := block
        obtain ⟨s, rfl⟩ := List.head?_eq_some_iff.mp next
        by_cases ended : ['*', '/'] <:+: s
        · obtain ⟨x, r, rfl, before⟩ := exists_first_of_pair_infix ended
          obtain ⟨region, rest⟩ := ih r.length (by simp; omega) r rfl
          exact ⟨region, .blockComment before rest⟩
        · exact ⟨_, .openBlockComment ended⟩
      obtain ⟨region, rest⟩ := ih s.length (by simp) s rfl
      exact ⟨region, .code literal (not_and.mp line) (not_and.mp block) rest⟩

/-- Stripping goes on with what is behind a text as with code if the text ends in code, and not with
a character that the next one may make a mark with. -/
theorem EndsIn.exists_strip {region : Region} (h : EndsIn region s) (code : region = .code)
    (edge : ∀ mark ∈ ['\x27', '-', '/'], s.getLast? ≠ some mark) :
    ∃ kept, ∀ done r, strip .code done (s ++ r) = strip .code (kept ++ done) r := by
  induction h with
  | nil => exact ⟨[], fun _ _ => rfl⟩
  | openLiteral => cases code
  | openLineComment => cases code
  | openBlockComment => cases code
  | @code _ c s literal line block _ ih =>
    obtain ⟨kept, rest⟩ := ih code fun mark hm =>
      getLast?_ne_of_append (w := [c]) (edge mark hm)
    have apart {mark next : Char} (listed : mark ∈ ['\x27', '-', '/'])
        (alone : c = mark → s.head? ≠ some next) (r : List Char) :
        ¬ (c = mark ∧ (s ++ r).head? = some next) := by
      rintro ⟨rfl, first⟩
      cases s with
      | nil => exact edge c listed rfl
      | cons d s => exact alone rfl first
    refine ⟨kept ++ [c], fun done r => ?_⟩
    rw [List.cons_append, strip_cons]
    dsimp only
    rw [if_neg literal, if_neg (apart (by decide) line r), if_neg (apart (by decide) block r), rest,
      List.append_assoc, List.singleton_append]
  | @literal _ x s paired ended _ ih =>
    obtain ⟨kept, rest⟩ := ih code fun mark hm =>
      getLast?_ne_of_append (w := '\x27' :: (x ++ ['\x27'])) (by simpa using edge mark hm)
    refine ⟨kept ++ ['\x27', '\x27'], fun done r => ?_⟩
    have ended_r : (s ++ r).head? ≠ some '\x27' := by
      cases s with
      | nil => exact absurd (List.getLast?_concat (l := '\x27' :: x)) (edge '\x27' (by decide))
      | cons d s => exact ended
    simp only [List.cons_append, List.append_assoc, List.nil_append]
    rw [strip_quoted paired ended_r, rest]
  | @lineComment _ x s line _ ih =>
    obtain ⟨kept, rest⟩ := ih code fun mark hm =>
      getLast?_ne_of_append (w := '-' :: '-' :: (x ++ ['\n'])) (by simpa using edge mark hm)
    refine ⟨kept ++ ['\n'], fun done r => ?_⟩
    simp only [List.cons_append, List.append_assoc, List.nil_append]
    rw [strip, strip_lineComment line, rest]
  | @blockComment _ x s block _ ih =>
    obtain ⟨kept, rest⟩ := ih code fun mark hm =>
      getLast?_ne_of_append (w := '/' :: '*' :: (x ++ ['*', '/'])) (by simpa using edge mark hm)
    refine ⟨kept ++ [' '], fun done r => ?_⟩
    simp only [List.cons_append, List.append_assoc, List.nil_append]
    rw [strip, strip_blockComment block, rest]

/-! ## Scrubbing -/

theorem scrub_congr {s t : String} (same : strip .code [] s.toList = strip .code [] t.toList) :
    scrub s = scrub t := by
  rw [scrub, scrub, scrubChars, scrubChars, same]

/-- Behind a text that ends in code, a block comment is as good as a space, a line comment as the
line break behind it, and a literal as any other literal. -/
theorem scrub_unseen {l r : String} (ended : EndsIn .code l.toList)
    (edge : ∀ mark ∈ ['\x27', '-', '/'], l.toList.getLast? ≠ some mark) :
    (∀ c : String, ¬ "*/".toList <:+: c.toList →
      scrub (l ++ "/*" ++ c ++ "*/" ++ r) = scrub (l ++ " " ++ r)) ∧
    (∀ c : String, '\n' ∉ c.toList →
      scrub (l ++ "--" ++ c ++ "\n" ++ r) = scrub (l ++ "\n" ++ r)) ∧
    (r.toList.head? ≠ some '\x27' →
      ∀ s t : String, Paired '\x27' s.toList → Paired '\x27' t.toList →
        scrub (l ++ "'" ++ s ++ "'" ++ r) = scrub (l ++ "'" ++ t ++ "'" ++ r)) := by
  have space {c : Char} (blank : isBlank c = true) (kept s : List Char) :
      strip .code kept (c :: s) = strip .code (c :: kept) s :=
    strip_code_cons (by rintro rfl; cases blank) (by rintro rfl; cases blank)
      (by rintro rfl; cases blank)
  obtain ⟨kept, behind⟩ := ended.exists_strip rfl edge
  refine ⟨fun c block => scrub_congr ?_, fun c line => scrub_congr ?_,
    fun next s t paired_s paired_t => scrub_congr ?_⟩
  all_goals simp only [String.toList_append, List.append_assoc, behind]
  · calc strip .code (kept ++ []) ('/' :: '*' :: (c.toList ++ '*' :: '/' :: r.toList))
      _ = strip .blockComment (' ' :: (kept ++ [])) (c.toList ++ '*' :: '/' :: r.toList) := by
          rw [strip]
      _ = strip .code (' ' :: (kept ++ [])) r.toList := strip_blockComment block
      _ = strip .code (kept ++ []) (' ' :: r.toList) := (space (by decide) _ _).symm
  · calc strip .code (kept ++ []) ('-' :: '-' :: (c.toList ++ '\n' :: r.toList))
      _ = strip .lineComment (kept ++ []) (c.toList ++ '\n' :: r.toList) := by rw [strip]
      _ = strip .code ('\n' :: (kept ++ [])) r.toList := strip_lineComment line
      _ = strip .code (kept ++ []) ('\n' :: r.toList) := (space (by decide) _ _).symm
  · exact (strip_quoted paired_s next).trans (strip_quoted paired_t next).symm

theorem scrub_unseen_crossed :
    let l := "'--'/*'*/--'\n("
    let r := ") = 'b'"
    EndsIn .code l.toList ∧ scrub (l ++ " " ++ r) = "'' ( ) = ''" ∧
    scrub (l ++ "/*" ++ "it's --" ++ "*/" ++ r) = scrub (l ++ " " ++ r) ∧
    scrub (l ++ "--" ++ "/* it's" ++ "\n" ++ r) = scrub (l ++ "\n" ++ r) ∧
    scrub (l ++ "'" ++ "'' --" ++ "'" ++ r) = scrub (l ++ "'" ++ "/*" ++ "'" ++ r) := by
  intro l r
  have split : l.toList = '\x27' :: ("--".toList ++ '\x27' :: '/' :: '*' :: ("'".toList ++
      '*' :: '/' :: '-' :: '-' :: ("'".toList ++ '\n' :: ['(']))) := by decide
  have dashes : Paired '\x27' "--".toList := .other (by decide) (.other (by decide) .nil)
  have ended : EndsIn .code l.toList := by
    rw [split]
    exact .literal dashes (by decide) (.blockComment (by decide) (.lineComment (by decide)
      (.code (by decide) (by decide) (by decide) .nil)))
  have last : l.toList.getLast? = some '(' := by decide
  obtain ⟨block, line, literal⟩ := scrub_unseen (r := r) ended (by simp [last])
  have pair_dashes : Paired '\x27' "'' --".toList := .pair (.other (by decide) dashes)
  have star : Paired '\x27' "/*".toList := .other (by decide) (.other (by decide) .nil)
  exact ⟨ended, by decide +kernel, block "it's --" (by decide +kernel), line "/* it's" (by decide),
    literal (by decide) "'' --" "/*" pair_dashes star⟩

end QueryWorkbench.Analysis
