/-
QueryWorkbench.Proofs.Sql.Scrubbed — generated text after scrubbing, phrase by phrase.

Scrubbing turns every gap into one space and leaves the bare text of every phrase
(`scrubChars_render`), in either layout. `Harmless` are the phrases whose bare text holds no table
and no condition: names, numbers, operators and the literals of all values.
-/
import QueryWorkbench.Proofs.Analysis.Openings
import QueryWorkbench.Proofs.Analysis.Scrubbing
import QueryWorkbench.Proofs.Analysis.TableMatch
import QueryWorkbench.Sql.Generate

namespace QueryWorkbench.Sql

open Analysis Text

/-! ## Phrases and gaps -/

variable {d : Dialect}

theorem Phrase.toList_text_cons (t : Token) (p : Phrase) :
    (Phrase.text d (t :: p)).toList = (t.text d).toList ++ (p.text d).toList := by
  rw [Phrase.text, List.map_cons, String.join_cons, String.toList_append]
  rfl

theorem Phrase.toList_text_append (p q : Phrase) :
    (Phrase.text d (p ++ q)).toList = (p.text d).toList ++ (q.text d).toList := by
  rw [Phrase.text, List.map_append, String.join_append, String.toList_append]
  rfl

theorem Phrase.toList_text_singleton (t : Token) :
    (Phrase.text d [t]).toList = (t.text d).toList := by
  rw [toList_text_cons]
  exact List.append_nil _

/-- A separator stands in front of every text but the first. -/
theorem intercalate_cons {α : Type} (sep item : List α) (rest : List (List α)) :
    sep.intercalate (item :: rest) = item ++ rest.flatMap fun next => sep ++ next := by
  induction rest generalizing item with
  | nil => rw [List.intercalate_singleton, List.flatMap_nil, List.append_nil]
  | cons next rest ih =>
    rw [List.intercalate_cons_cons, ih, List.flatMap_cons, List.append_assoc, List.append_assoc]

/-- What scrubbing leaves of phrases, each with a space in front. -/
inductive Bared (d : Dialect) : List Phrase → List Char → Prop
  | nil : Bared d [] []
  | cons {p : Phrase} {ps : List Phrase} {b s : List Char} (bare : Bares (p.text d).toList b)
      (tidy : Tidy b) : Bared d ps s → Bared d (p :: ps) (' ' :: (b ++ s))

namespace Bared

variable {ps qs : List Phrase} {s t : List Char}

theorem singleton {p : Phrase} {b : List Char} (bare : Bares (p.text d).toList b) (tidy : Tidy b) :
    Bared d [p] (' ' :: b) := by
  have bared : Bared d [p] (' ' :: (b ++ [])) := .cons bare tidy .nil
  rwa [List.append_nil] at bared

theorem append (h : Bared d ps s) (k : Bared d qs t) : Bared d (ps ++ qs) (s ++ t) := by
  induction h with
  | nil => exact k
  | cons bare tidy _ ih =>
    rw [List.cons_append, List.cons_append, List.append_assoc]
    exact .cons bare tidy ih

theorem flatMap {α : Type} {items : List α} {f : α → List Phrase} {g : α → List Char}
    (each : ∀ x ∈ items, Bared d (f x) (g x)) : Bared d (items.flatMap f) (items.flatMap g) := by
  induction items with
  | nil => exact .nil
  | cons x rest ih =>
    rw [List.flatMap_cons, List.flatMap_cons]
    exact (each x (List.mem_cons_self ..)).append (ih fun y hy => each y (List.mem_cons_of_mem _ hy))

theorem last (h : Bared d ps s) : s.getLast?.any isBlank = false ∨ s = [] := by
  induction h with
  | nil => exact Or.inr rfl
  | @cons p ps b s bare tidy _ ih =>
    refine Or.inl ?_
    rw [← List.singleton_append, List.getLast?_append, List.getLast?_append]
    rcases ih with last | rfl
    · cases found : s.getLast? with
      | none =>
        rw [List.getLast?_eq_some_getLast tidy.nonempty]
        have last := tidy.last
        rwa [List.getLast?_eq_some_getLast tidy.nonempty] at last
      | some c =>
        rw [found] at last
        exact last
    · rw [List.getLast?_eq_some_getLast tidy.nonempty]
      have last := tidy.last
      rwa [List.getLast?_eq_some_getLast tidy.nonempty] at last

end Bared

theorem Gap.text_blank (layout : Layout) (gap : Gap) :
    (gap.text layout).toList ≠ [] ∧
      ∀ c ∈ (gap.text layout).toList, isBlank c = true ∧ isPlain c = true := by
  cases layout <;> cases gap <;> decide

/-- The text of fragments behind the first one. -/
def gapped (d : Dialect) (layout : Layout) (fs : List Fragment) : List Char :=
  fs.flatMap fun g => (g.gap.text layout).toList ++ (g.phrase.text d).toList

/-- Rendered fragments are the first phrase and the gapped ones behind it. -/
theorem toList_render_cons (layout : Layout) (f : Fragment) (fs : List Fragment) :
    (render d layout (f :: fs)).toList = (f.phrase.text d).toList ++ gapped d layout fs := by
  rw [render, String.toList_append, String.toList_join, List.flatMap_map, gapped]
  congr 2
  funext g
  exact String.toList_append

/-- A gap starts with a plain character. -/
theorem head?_gapped_ne (layout : Layout) (fs : List Fragment) {c : Char}
    (special : isPlain c = false) : (gapped d layout fs).head? ≠ some c := by
  cases fs with
  | nil => simp [gapped]
  | cons g fs =>
    obtain ⟨nonempty, blank⟩ := Gap.text_blank layout g.gap
    obtain ⟨e, rest, split⟩ := List.exists_cons_of_ne_nil nonempty
    have plain := (blank e (split ▸ List.mem_cons_self ..)).2
    simp only [gapped, List.flatMap_cons, split, List.cons_append, List.head?_cons]
    rintro ⟨⟩
    rw [plain] at special
    cases special

/-- Stripping and squeezing bare the phrases and leave one space of every gap. -/
theorem exists_bares_gapped (layout : Layout) {fs : List Fragment} {s : List Char}
    (h : Bared d (fs.map Fragment.phrase) s) :
    ∃ m, Bares (gapped d layout fs) m ∧ squeeze m = s := by
  induction fs generalizing s with
  | nil =>
    cases h
    exact ⟨[], .nil, rfl⟩
  | cons f fs ih =>
    obtain ⟨gap, phrase⟩ := f
    cases h with
    | @cons _ _ b s bare tidy more =>
      obtain ⟨m, bares, squeezed⟩ := ih more
      obtain ⟨nonempty, blank⟩ := Gap.text_blank layout gap
      refine ⟨(gap.text layout).toList ++ (b ++ m), ?_, ?_⟩
      · have both := bare.append bares (head?_gapped_ne layout fs (by decide))
          (head?_gapped_ne layout fs (by decide))
        rw [gapped, List.flatMap_cons, List.append_assoc]
        exact both.plain_append fun c hc => (blank c hc).2
      · rw [tidy.squeeze_gap m nonempty fun c hc => (blank c hc).1, squeezed]

/-- Scrubbed text is made of the bare texts of the phrases with one space between them. -/
theorem scrubChars_render (layout : Layout) {f : Fragment} {fs : List Fragment} {b s : List Char}
    (bare : Bares (f.phrase.text d).toList b) (tidy : Tidy b)
    (h : Bared d (fs.map Fragment.phrase) s) :
    scrubChars (render d layout (f :: fs)).toList = b ++ s := by
  obtain ⟨m, bares, squeezed⟩ := exists_bares_gapped layout h
  have both := bare.append bares (head?_gapped_ne layout fs (by decide))
    (head?_gapped_ne layout fs (by decide))
  have first : (b ++ s).head?.any isBlank = false := by
    have first := tidy.first
    obtain ⟨c, b, rfl⟩ := List.exists_cons_of_ne_nil tidy.nonempty
    exact first
  have last : (b ++ s).getLast?.any isBlank = false := by
    have last := (Bared.cons bare tidy h).last
    rcases last with last | none
    · rw [List.getLast?_cons_of_ne_nil] at last
      · exact last
      · exact List.append_ne_nil_of_left_ne_nil tidy.nonempty s
    · cases none
  rw [scrubChars, toList_render_cons, both.unquoteNames_strip, tidy.squeeze_append, squeezed, trim_eq first last]

/-! ## Harmless text -/

/-- A text that scrubbing leaves without tables and conditions, and that closes its
parentheses. -/
def Harmless (s : List Char) : Prop := ∃ b, Bares s b ∧ Tidy b ∧ Balanced b ∧ Lacks openers b

/-- A text that scrubbing leaves as it is, without tables, conditions and parentheses. -/
structure Quiet (s : List Char) : Prop where
  plain : ∀ c ∈ s, isPlain c = true
  tidy : Tidy s
  calm : ∀ c ∈ s, c ≠ '(' ∧ c ≠ ')'
  lacks : Lacks openers s

instance (s : List Char) : Decidable (Quiet s) :=
  decidable_of_iff ((∀ c ∈ s, isPlain c = true) ∧ Tidy s ∧ (∀ c ∈ s, c ≠ '(' ∧ c ≠ ')') ∧
    Lacks openers s) ⟨fun ⟨a, b, c, d⟩ => ⟨a, b, c, d⟩, fun ⟨a, b, c, d⟩ => ⟨a, b, c, d⟩⟩

theorem Quiet.harmless {s : List Char} (h : Quiet s) : Harmless s :=
  ⟨s, bares_of_plain h.plain, h.tidy, balanced_of_calm h.calm, h.lacks⟩

/-- Harmless phrases are left as a text without tables and conditions. -/
theorem exists_bared {p : Phrase} {ps : List Phrase}
    (all : ∀ q ∈ p :: ps, Harmless (q.text d).toList) :
    ∃ s, Bared d (p :: ps) (' ' :: s) ∧ Balanced s ∧ Lacks openers s := by
  induction ps generalizing p with
  | nil =>
    obtain ⟨b, bare, tidy, balanced, lacks⟩ := all p (List.mem_cons_self ..)
    exact ⟨b, .singleton bare tidy, balanced, lacks⟩
  | cons q ps ih =>
    obtain ⟨b, bare, tidy, balanced, lacks⟩ := all p (List.mem_cons_self ..)
    obtain ⟨s, bared, more, rest⟩ := ih fun r hr => all r (List.mem_cons_of_mem _ hr)
    exact ⟨b ++ ' ' :: s, .cons bare tidy bared,
      balanced.append (.calm (by decide) (by decide) more),
      (lacks_append_cons (by decide)).mpr ⟨lacks, rest⟩⟩

namespace Harmless

variable {s t : List Char}

/-- Two texts with a comma and a space between them. -/
theorem comma (h : Harmless s) (k : Harmless t) : Harmless (s ++ (", ".toList ++ t)) := by
  obtain ⟨b, bares, tidy, balanced, lacks⟩ := h
  obtain ⟨c, bares', tidy', balanced', lacks'⟩ := k
  have separated : Tidy (b ++ [',']) := tidy.append (by decide)
  refine ⟨b ++ (", ".toList ++ c),
    bares.append (bares'.plain_append (by decide)) (by simp) (by simp), ?_, ?_, ?_⟩
  · have spaced := separated.space tidy'
    rwa [List.append_assoc] at spaced
  · exact balanced.append ((balanced_of_calm (by decide)).append balanced')
  · exact (lacks_append_cons (by decide)).mpr ⟨lacks, (lacks_cons (by decide)).mpr lacks'⟩

/-- A text in parentheses. -/
theorem parens (h : Harmless s) : Harmless ("(".toList ++ s ++ ")".toList) := by
  obtain ⟨b, bares, tidy, balanced, lacks⟩ := h
  have opening := (by decide : Tidy "(".toList)
  have closing : Bares ")".toList ")".toList := bares_of_plain (by decide)
  refine ⟨"(".toList ++ b ++ ")".toList, (bares.plain_append (by decide)).append closing (by simp)
    (by simp), (opening.append tidy).append (by decide), ?_, ?_⟩
  · exact .nest balanced .nil
  · exact (lacks_append_cons (by decide)).mpr ⟨(lacks_cons (by decide)).mpr lacks, lacks_nil⟩

/-- A text with a comma behind it. -/
theorem endWithComma (h : Harmless s) : Harmless (s ++ ",".toList) := by
  obtain ⟨b, bares, tidy, balanced, lacks⟩ := h
  have comma : Bares ",".toList ",".toList := bares_of_plain (by decide)
  exact ⟨b ++ ",".toList, bares.append comma (by simp) (by simp), tidy.append (by decide),
    balanced.append (balanced_of_calm (by decide)), (lacks_append_cons (by decide)).mpr
      ⟨lacks, lacks_nil⟩⟩

/-- A text in the parentheses of a function. -/
theorem call {f : List Char} (hf : Quiet f) (h : Harmless s) :
    Harmless (f ++ ("(".toList ++ s ++ ")".toList)) := by
  obtain ⟨b, bares, tidy, balanced, lacks⟩ := h
  have opening := (by decide : Tidy "(".toList)
  have closing : Bares ")".toList ")".toList := bares_of_plain (by decide)
  have inner : Bares ("(".toList ++ s ++ ")".toList) ("(".toList ++ b ++ ")".toList) :=
    (bares.plain_append (by decide)).append closing (by simp) (by simp)
  refine ⟨f ++ ("(".toList ++ b ++ ")".toList), inner.plain_append hf.plain,
    hf.tidy.append ((opening.append tidy).append (by decide)), ?_, ?_⟩
  · exact (balanced_of_calm hf.calm).append (.nest balanced .nil)
  · exact (lacks_append_cons (by decide)).mpr
      ⟨hf.lacks, (lacks_append_cons (by decide)).mpr ⟨lacks, lacks_nil⟩⟩

end Harmless

theorem harmless_empty : Harmless ("(".toList ++ "".toList ++ ")".toList) :=
  ⟨_, bares_of_plain (by decide), by decide, .nest .nil .nil, by decide⟩

end QueryWorkbench.Sql
