/-
QueryWorkbench.Proofs.Sql.Normal — what normalising does to a text.

Before a statement is laid out, every run of blanks becomes one space and every comma gets one
space behind it. Both go over a text from one solid character to the next, a solid character being
neither a blank nor a comma (`normal_append_cons`): phrases with spaces between them are normalised
one by one (`normal_spaced`), words are kept (`wordsOf_normal`), and the layout that SQL was
generated in is forgotten (`squeeze_render`).
-/
import QueryWorkbench.Proofs.Sql.Scrubbed
import QueryWorkbench.Sql.Format

namespace QueryWorkbench.Sql

open Analysis Text

/-! ## Blanks -/

section

variable {c : Char} {s t r : List Char}

/-- What is squeezed behind a text only matters as it is squeezed. -/
theorem squeeze_append_congr (s : List Char) (same : squeeze r = squeeze t) :
    squeeze (s ++ r) = squeeze (s ++ t) := by
  induction s with
  | nil => exact same
  | cons d s ih => rw [List.cons_append, List.cons_append, squeeze_cons, squeeze_cons, ih]

/-- Blanks in a row count as one space. -/
theorem squeeze_blank_append {g : List Char} (some : g ≠ []) (blank : ∀ c ∈ g, isBlank c = true) :
    squeeze (g ++ r) = squeeze (' ' :: r) := by
  induction g with
  | nil => exact absurd rfl some
  | cons d g ih =>
    have space : isBlank ' ' = true := by decide
    rw [List.cons_append, squeeze_cons, squeezeOnto, if_pos (blank d (List.mem_cons_self ..))]
    by_cases more : g = []
    · rw [more, List.nil_append, squeeze_cons, squeezeOnto, if_pos space]
    · rw [ih more fun e he => blank e (List.mem_cons_of_mem _ he), squeeze_cons, squeezeOnto,
        if_pos space]
      split
      · rfl
      · rw [List.head?_cons, if_pos rfl]

/-- A text is squeezed on both sides of a character that is no blank. -/
theorem squeeze_append_cons (solid : isBlank c = false) (s r : List Char) :
    squeeze (s ++ c :: r) = squeeze s ++ c :: squeeze r := by
  induction s with
  | nil => rw [List.nil_append, squeeze_cons, squeezeOnto, solid]; rfl
  | cons d s ih =>
    have edge : (squeeze s ++ c :: squeeze r).head? = some ' ' ↔ (squeeze s).head? = some ' ' := by
      cases squeeze s with
      | nil =>
        constructor
        · rintro ⟨⟩
          cases solid
        · intro none
          cases none
      | cons e t => rfl
    rw [List.cons_append, squeeze_cons, ih, squeezeOnto, squeeze_cons, squeezeOnto]
    simp only [edge]
    split
    · split
      · rfl
      · rfl
    · rfl

/-- A squeezed text has no blanks but spaces, and no two of them in a row. -/
theorem squeeze_cons_eq_self_iff : squeeze (c :: s) = c :: s ↔
    squeeze s = s ∧ (isBlank c = true → c = ' ' ∧ s.head? ≠ some ' ') := by
  rw [squeeze_cons, squeezeOnto]
  by_cases blank : isBlank c = true
  · rw [if_pos blank]
    by_cases spaced : (squeeze s).head? = some ' '
    · rw [if_pos spaced]
      have le := length_squeeze_le s
      constructor
      · intro same
        rw [same, List.length_cons] at le
        omega
      · rintro ⟨same, other⟩
        rw [same] at spaced
        exact absurd spaced (other blank).2
    · rw [if_neg spaced]
      constructor
      · intro same
        obtain ⟨rfl, tail⟩ := List.cons.inj same
        rw [tail] at spaced
        exact ⟨tail, fun _ => ⟨rfl, spaced⟩⟩
      · rintro ⟨tail, other⟩
        rw [tail, (other blank).1]
  · rw [if_neg blank, List.cons.injEq, eq_self, true_and]
    exact ⟨fun same => ⟨same, fun blank' => absurd blank' blank⟩, And.left⟩

end

/-! ## Commas -/

section

variable {c : Char} {s r : List Char}

theorem tidyCommas_cons (space : c ≠ ' ') (comma : c ≠ ',') (s : List Char) :
    tidyCommas (c :: s) = c :: tidyCommas s := by
  rw [tidyCommas]
  · exact fun _ same => absurd same space
  · exact fun _ same => absurd same space
  · exact fun _ same => absurd same comma
  · exact comma

theorem tidyCommas_space (next : s.head? ≠ some ',') :
    tidyCommas (' ' :: s) = ' ' :: tidyCommas s := by
  rw [tidyCommas]
  · rintro rest - rfl
    exact next rfl
  · rintro rest - rfl
    exact next rfl
  · rintro rest ⟨⟩
  · rintro ⟨⟩

theorem tidyCommas_comma (next : s.head? ≠ some ' ') :
    tidyCommas (',' :: s) = ',' :: ' ' :: tidyCommas s := by
  rw [tidyCommas]
  rintro rest rfl
  exact next rfl

theorem head?_ne_of_forall_ne {t : List Char} (next : ∀ more, t = c :: more → False) :
    t.head? ≠ some c := by
  intro found
  obtain ⟨more, rfl⟩ := List.head?_eq_some_iff.mp found
  exact next more rfl

/-- Commas are put in order on both sides of a character that is neither a space nor a comma. -/
theorem tidyCommas_append_cons (space : c ≠ ' ') (comma : c ≠ ',') (s r : List Char) :
    tidyCommas (s ++ c :: r) = tidyCommas s ++ c :: tidyCommas r := by
  have other {d : Char} (distinct : c ≠ d) {t : List Char} (next : t.head? ≠ some d) :
      (t ++ c :: r).head? ≠ some d := by
    cases t with
    | nil => simpa using distinct
    | cons e t => exact next
  induction s using tidyCommas.induct with
  | case1 rest ih => simp only [List.cons_append, tidyCommas, ih]
  | case2 rest next ih =>
    have tail := other space (head?_ne_of_forall_ne next)
    simp only [List.cons_append]
    rw [tidyCommas, tidyCommas, ih]
    · rfl
    · exact next
    · intro more split
      exact tail (by rw [split]; rfl)
  | case3 rest ih => simp only [List.cons_append, tidyCommas, ih]
  | case4 rest next ih =>
    have tail := head?_ne_of_forall_ne next
    rw [List.cons_append, tidyCommas_comma (other space tail), tidyCommas_comma tail, ih]
    rfl
  | case5 d rest _ next _ plain ih =>
    by_cases blank : d = ' '
    · subst blank
      have tail := head?_ne_of_forall_ne fun more => next more rfl
      rw [List.cons_append, tidyCommas_space (other comma tail), tidyCommas_space tail, ih]
      rfl
    · rw [List.cons_append, tidyCommas_cons blank plain, tidyCommas_cons blank plain, ih]
      rfl
  | case6 => exact tidyCommas_cons space comma r

/-- A space in front is neither brought in nor taken away, unless a comma is behind it. -/
theorem head?_tidyCommas_ne (other : s.head? ≠ some ' ') : (tidyCommas s).head? ≠ some ' ' := by
  cases s using tidyCommas.fun_cases with
  | case1 rest => simp [tidyCommas]
  | case2 rest next => exact absurd rfl other
  | case3 rest => simp [tidyCommas]
  | case4 rest next => simp [tidyCommas_comma (head?_ne_of_forall_ne next)]
  | case5 d rest _ _ _ plain =>
    have space : d ≠ ' ' := fun same => other (by rw [same]; rfl)
    rw [tidyCommas_cons space plain]
    exact fun same => space (Option.some.inj same)
  | case6 => exact other

/-- Commas in order leave a squeezed text squeezed. -/
theorem squeeze_tidyCommas (squeezed : squeeze s = s) : squeeze (tidyCommas s) = tidyCommas s := by
  have separated {t : List Char} (tail : squeeze (tidyCommas t) = tidyCommas t)
      (next : t.head? ≠ some ' ') :
      squeeze (',' :: ' ' :: tidyCommas t) = ',' :: ' ' :: tidyCommas t :=
    squeeze_cons_eq_self_iff.mpr ⟨squeeze_cons_eq_self_iff.mpr
      ⟨tail, fun _ => ⟨rfl, head?_tidyCommas_ne next⟩⟩, fun blank => nomatch blank⟩
  induction s using tidyCommas.induct with
  | case1 rest ih =>
    obtain ⟨tail, -⟩ := squeeze_cons_eq_self_iff.mp squeezed
    obtain ⟨tail, -⟩ := squeeze_cons_eq_self_iff.mp tail
    obtain ⟨tail, next⟩ := squeeze_cons_eq_self_iff.mp tail
    rw [tidyCommas]
    exact separated (ih tail) (next rfl).2
  | case2 rest next ih =>
    obtain ⟨tail, -⟩ := squeeze_cons_eq_self_iff.mp squeezed
    obtain ⟨tail, -⟩ := squeeze_cons_eq_self_iff.mp tail
    rw [tidyCommas]
    · exact separated (ih tail) (head?_ne_of_forall_ne next)
    · exact next
  | case3 rest ih =>
    obtain ⟨tail, -⟩ := squeeze_cons_eq_self_iff.mp squeezed
    obtain ⟨tail, next⟩ := squeeze_cons_eq_self_iff.mp tail
    rw [tidyCommas]
    exact separated (ih tail) (next rfl).2
  | case4 rest next ih =>
    obtain ⟨tail, -⟩ := squeeze_cons_eq_self_iff.mp squeezed
    rw [tidyCommas_comma (head?_ne_of_forall_ne next)]
    exact separated (ih tail) (head?_ne_of_forall_ne next)
  | case5 d rest _ next _ plain ih =>
    obtain ⟨tail, blank⟩ := squeeze_cons_eq_self_iff.mp squeezed
    by_cases space : d = ' '
    · subst space
      rw [tidyCommas_space (head?_ne_of_forall_ne fun more => next more rfl)]
      exact squeeze_cons_eq_self_iff.mpr
        ⟨ih tail, fun _ => ⟨rfl, head?_tidyCommas_ne (blank rfl).2⟩⟩
    · rw [tidyCommas_cons space plain]
      exact squeeze_cons_eq_self_iff.mpr ⟨ih tail, fun found => absurd (blank found).1 space⟩
  | case6 => rfl

end

/-! ## Words -/

section

variable {s : List Char}

/-- Squeezing keeps the words of a text. -/
theorem wordsOf_squeeze (s : List Char) : wordsOf (squeeze s) = wordsOf s := by
  -- Goes over the text with the word `w` that is being read.
  have walk : ∀ t w, (∀ c ∈ w, isWord c = true) → wordsOf (w ++ squeeze t) = wordsOf (w ++ t) := by
    intro t
    induction t with
    | nil => exact fun _ _ => rfl
    | cons c t ih =>
      intro w word
      have rest : wordsOf (squeeze t) = wordsOf t := ih [] (by simp)
      by_cases inside : isWord c = true
      · have solid : ¬ isBlank c = true := Bool.eq_false_iff.mp (not_isBlank_of_isWord inside)
        have longer := ih (w ++ [c]) fun d hd => by
          rcases List.mem_append.mp hd with hd | hd
          · exact word d hd
          · exact List.mem_singleton.mp hd ▸ inside
        rw [List.append_assoc, List.append_assoc] at longer
        rw [squeeze_cons, squeezeOnto, if_neg solid]
        exact longer
      · have edge : isWord c = false := Bool.eq_false_iff.mpr inside
        rw [wordsOf_append_cons edge, squeeze_cons, squeezeOnto]
        split
        · split
          · rename_i spaced
            obtain ⟨u, split⟩ := List.head?_eq_some_iff.mp spaced
            rw [← rest, split, wordsOf_append_cons (by decide), wordsOf_cons (by decide)]
          · rw [wordsOf_append_cons (by decide), rest]
        · rw [wordsOf_append_cons edge, rest]
  exact walk s [] (by simp)

/-- Putting commas in order keeps the words of a text. -/
theorem wordsOf_tidyCommas (s : List Char) : wordsOf (tidyCommas s) = wordsOf s := by
  have space : isWord ' ' = false := by decide
  have comma : isWord ',' = false := by decide
  have walk : ∀ t w, (∀ c ∈ w, isWord c = true) →
      wordsOf (w ++ tidyCommas t) = wordsOf (w ++ t) := by
    intro t
    induction t using tidyCommas.induct with
    | case1 rest ih =>
      intro w word
      have tail : wordsOf (tidyCommas rest) = wordsOf rest := ih [] (by simp)
      rw [tidyCommas, wordsOf_append_cons comma, wordsOf_append_cons space, wordsOf_cons space,
        wordsOf_cons comma, wordsOf_cons space, tail]
    | case2 rest next ih =>
      intro w word
      have tail : wordsOf (tidyCommas rest) = wordsOf rest := ih [] (by simp)
      rw [tidyCommas, wordsOf_append_cons comma, wordsOf_append_cons space, wordsOf_cons space,
        wordsOf_cons comma, tail]
      exact next
    | case3 rest ih =>
      intro w word
      have tail : wordsOf (tidyCommas rest) = wordsOf rest := ih [] (by simp)
      rw [tidyCommas, wordsOf_append_cons comma, wordsOf_append_cons comma, wordsOf_cons space,
        wordsOf_cons space, tail]
    | case4 rest next ih =>
      intro w word
      have tail : wordsOf (tidyCommas rest) = wordsOf rest := ih [] (by simp)
      rw [tidyCommas_comma (head?_ne_of_forall_ne next), wordsOf_append_cons comma,
        wordsOf_append_cons comma, wordsOf_cons space, tail]
    | case5 d rest _ next _ plain ih =>
      intro w word
      have kept : tidyCommas (d :: rest) = d :: tidyCommas rest := by
        by_cases blank : d = ' '
        · subst blank
          exact tidyCommas_space (head?_ne_of_forall_ne fun more => next more rfl)
        · exact tidyCommas_cons blank plain rest
      rw [kept]
      by_cases inside : isWord d = true
      · have longer := ih (w ++ [d]) fun e he => by
          rcases List.mem_append.mp he with he | he
          · exact word e he
          · exact List.mem_singleton.mp he ▸ inside
        rwa [List.append_assoc, List.append_assoc] at longer
      · have edge : isWord d = false := Bool.eq_false_iff.mpr inside
        have tail : wordsOf (tidyCommas rest) = wordsOf rest := ih [] (by simp)
        rw [wordsOf_append_cons edge, wordsOf_append_cons edge, tail]
    | case6 => exact fun _ _ => rfl
  exact walk s [] (by simp)

end

/-! ## Solid characters -/

/-- Neither a blank nor a comma. -/
def isSolid (c : Char) : Bool := !isBlank c && c != ','

/-- A text with one space for every run of blanks and one behind every comma. -/
def normal (s : List Char) : List Char := tidyCommas (squeeze s)

theorem isBlank_of_isSolid {c : Char} (solid : isSolid c = true) : isBlank c = false := by
  rw [isSolid, Bool.and_eq_true] at solid
  simpa using solid.1

theorem ne_comma_of_isSolid {c : Char} (solid : isSolid c = true) : c ≠ ',' := by
  rw [isSolid, Bool.and_eq_true] at solid
  simpa using solid.2

theorem ne_space_of_isSolid {c : Char} (solid : isSolid c = true) : c ≠ ' ' := by
  rintro rfl
  cases solid

/-- A text is normalised on both sides of a solid character. -/
theorem normal_append_cons {c : Char} (solid : isSolid c = true) (s r : List Char) :
    normal (s ++ c :: r) = normal s ++ c :: normal r := by
  rw [normal, squeeze_append_cons (isBlank_of_isSolid solid),
    tidyCommas_append_cons (ne_space_of_isSolid solid) (ne_comma_of_isSolid solid)]
  rfl

theorem normal_cons {c : Char} (solid : isSolid c = true) (r : List Char) :
    normal (c :: r) = c :: normal r := normal_append_cons solid [] r

/-- The words of a text are those of the normalised one. -/
theorem wordsOf_normal (s : List Char) : wordsOf (normal s) = wordsOf s := by
  rw [normal, wordsOf_tidyCommas, wordsOf_squeeze]

theorem lacks_normal {ks : List String} {s : List Char} : Lacks ks (normal s) ↔ Lacks ks s := by
  rw [Lacks, wordsOf_normal]
  rfl

/-! ## Phrases -/

/-- A text with a solid character at each end. -/
structure Firm (s : List Char) : Prop where
  first : s.head?.any isSolid = true
  last : s.getLast?.any isSolid = true

instance (s : List Char) : Decidable (Firm s) :=
  decidable_of_iff (s.head?.any isSolid = true ∧ s.getLast?.any isSolid = true)
    ⟨fun ⟨a, b⟩ => ⟨a, b⟩, fun ⟨a, b⟩ => ⟨a, b⟩⟩

namespace Firm

variable {s t : List Char}

theorem exists_cons (h : Firm s) : ∃ c r, s = c :: r ∧ isSolid c = true := by
  have first := h.first
  cases s with
  | nil => cases first
  | cons c r => exact ⟨c, r, rfl, first⟩

theorem exists_concat (h : Firm s) : ∃ r c, s = r ++ [c] ∧ isSolid c = true := by
  have last := h.last
  rcases List.eq_nil_or_concat s with rfl | ⟨r, c, rfl⟩
  · cases last
  · rw [List.concat_eq_append, List.getLast?_append] at last
    exact ⟨r, c, List.concat_eq_append, last⟩

theorem ne_nil (h : Firm s) : s ≠ [] := by
  obtain ⟨c, r, rfl, -⟩ := h.exists_cons
  exact List.cons_ne_nil _ _

theorem of_ends {c e : Char} {r : List Char} (first : isSolid c = true) (last : isSolid e = true) :
    Firm (c :: (r ++ [e])) :=
  ⟨first, by rw [← List.cons_append, List.getLast?_append]; exact last⟩

theorem of_all {r : List Char} (nonempty : r ≠ []) (all : ∀ c ∈ r, isSolid c = true) : Firm r := by
  refine ⟨?_, ?_⟩
  · obtain ⟨c, r, rfl⟩ := List.exists_cons_of_ne_nil nonempty
    exact all c (List.mem_cons_self ..)
  · rw [List.getLast?_eq_some_getLast nonempty]
    exact all _ (List.getLast_mem nonempty)

/-- Anything may stand between two firm texts. -/
theorem append (hs : Firm s) (ht : Firm t) (g : List Char) : Firm (s ++ (g ++ t)) := by
  refine ⟨?_, ?_⟩
  · obtain ⟨c, r, rfl, solid⟩ := hs.exists_cons
    exact solid
  · obtain ⟨r, c, rfl, solid⟩ := ht.exists_concat
    rw [← List.append_assoc, ← List.append_assoc, List.getLast?_append]
    exact solid

theorem space (hs : Firm s) (ht : Firm t) : Firm (s ++ ' ' :: t) := hs.append ht [' ']

theorem normal (hs : Firm s) : Firm (normal s) := by
  refine ⟨?_, ?_⟩
  · obtain ⟨c, r, rfl, solid⟩ := hs.exists_cons
    rw [normal_cons solid]
    exact solid
  · obtain ⟨r, c, rfl, solid⟩ := hs.exists_concat
    rw [normal_append_cons solid, List.getLast?_append]
    exact solid

theorem tidy (hs : Firm s) (squeezed : squeeze s = s) : Tidy s := by
  refine ⟨hs.ne_nil, ?_, ?_, squeezed⟩
  · obtain ⟨c, r, rfl, solid⟩ := hs.exists_cons
    exact isBlank_of_isSolid solid
  · obtain ⟨r, c, rfl, solid⟩ := hs.exists_concat
    rw [List.getLast?_append]
    exact isBlank_of_isSolid solid

end Firm

theorem squeeze_squeeze (s : List Char) : squeeze (squeeze s) = squeeze s := by
  induction s with
  | nil => rfl
  | cons c s ih =>
    rw [squeeze_cons, squeezeOnto]
    split
    · split
      · exact ih
      · rename_i other
        exact squeeze_cons_eq_self_iff.mpr ⟨ih, fun _ => ⟨rfl, other⟩⟩
    · rename_i solid
      exact squeeze_cons_eq_self_iff.mpr ⟨ih, fun blank => absurd blank solid⟩

/-- A normalised text with solid ends is tidy. -/
theorem tidy_normal {s : List Char} (h : Firm s) : Tidy (normal s) :=
  h.normal.tidy (squeeze_tidyCommas (squeeze_squeeze s))

/-- A squeezed text with solid ends is tidy. -/
theorem Firm.tidy_squeeze {s : List Char} (h : Firm s) : Tidy (squeeze s) := by
  refine Firm.tidy ⟨?_, ?_⟩ (squeeze_squeeze s)
  · obtain ⟨c, r, rfl, solid⟩ := h.exists_cons
    rw [← List.nil_append (c :: r), squeeze_append_cons (isBlank_of_isSolid solid)]
    exact solid
  · obtain ⟨r, c, rfl, solid⟩ := h.exists_concat
    rw [squeeze_append_cons (isBlank_of_isSolid solid), List.getLast?_append]
    exact solid

/-- Firm texts are normalised apart from what stands between them. -/
theorem normal_append {s t : List Char} (hs : Firm s) (ht : Firm t) (g : List Char) :
    normal (s ++ (g ++ t)) = normal s ++ (normal g ++ normal t) := by
  obtain ⟨s, c, rfl, solid_c⟩ := hs.exists_concat
  obtain ⟨e, t, rfl, solid_e⟩ := ht.exists_cons
  have last : normal (s ++ [c]) = normal s ++ [c] := normal_append_cons solid_c s []
  rw [List.append_assoc, List.singleton_append, normal_append_cons solid_c,
    normal_append_cons solid_e, normal_cons solid_e, last, List.append_assoc, List.singleton_append]

/-- Firm texts with a space between them are normalised one by one. -/
theorem normal_space {s t : List Char} (hs : Firm s) (ht : Firm t) :
    normal (s ++ ' ' :: t) = normal s ++ ' ' :: normal t := normal_append hs ht [' ']

/-- Texts with a space in front of each. -/
def spaced (ts : List (List Char)) : List Char := ts.flatMap (' ' :: ·)

@[simp] theorem spaced_nil : spaced [] = [] := rfl

@[simp] theorem spaced_cons (t : List Char) (ts : List (List Char)) :
    spaced (t :: ts) = ' ' :: (t ++ spaced ts) := rfl

@[simp] theorem spaced_append (ts us : List (List Char)) :
    spaced (ts ++ us) = spaced ts ++ spaced us := List.flatMap_append

theorem lacks_spaced {ks : List String} {ts : List (List Char)} :
    Lacks ks (spaced ts) ↔ ∀ t ∈ ts, Lacks ks t := by
  induction ts with
  | nil => simp [lacks_nil]
  | cons t ts ih =>
    have edge : (spaced ts).head?.any isWord = false := by cases ts <;> rfl
    rw [spaced_cons, lacks_space, lacks_append edge, ih, List.forall_mem_cons]

theorem Firm.spaced {s : List Char} (hs : Firm s) {ts : List (List Char)} (firm : ∀ t ∈ ts, Firm t) :
    Firm (s ++ spaced ts) := by
  induction ts generalizing s with
  | nil => rwa [spaced_nil, List.append_nil]
  | cons t ts ih =>
    have longer := ih (hs.space (firm t (List.mem_cons_self ..))) fun u hu =>
      firm u (List.mem_cons_of_mem _ hu)
    rwa [List.append_assoc, List.cons_append] at longer

theorem normal_spaced {s : List Char} (hs : Firm s) {ts : List (List Char)}
    (firm : ∀ t ∈ ts, Firm t) : normal (s ++ spaced ts) = normal s ++ spaced (ts.map normal) := by
  induction ts generalizing s with
  | nil => rw [spaced_nil, List.append_nil, List.map_nil, spaced_nil, List.append_nil]
  | cons t ts ih =>
    have ht := firm t (List.mem_cons_self ..)
    have longer := ih (hs.space ht) fun u hu => firm u (List.mem_cons_of_mem _ hu)
    rw [List.append_assoc, List.cons_append, normal_space hs ht] at longer
    rw [spaced_cons, longer, List.map_cons, spaced_cons, List.append_assoc, List.cons_append]

/-! ## Layouts -/

/-- The text of a phrase, as characters. -/
abbrev Phrase.chars (d : Dialect) (p : Phrase) : List Char := (p.text d).toList

variable {d : Dialect}

/-- In the compact layout phrases have spaces between them. -/
theorem toList_render_compact (f : Fragment) (fs : List Fragment) :
    (render d .compact (f :: fs)).toList =
      f.phrase.chars d ++ spaced ((fs.map Fragment.phrase).map (Phrase.chars d)) := by
  have space (g : Fragment) : (g.gap.text .compact).toList = [' '] := by
    cases g.gap <;> rfl
  simp only [toList_render_cons, gapped, space, spaced, List.map_map, List.flatMap_map]
  rfl

/-- Squeezing makes both layouts the same. -/
theorem squeeze_render (layout : Layout) (fs : List Fragment) :
    squeeze (render d layout fs).toList = squeeze (render d .compact fs).toList := by
  have gaps (gs : List Fragment) :
      squeeze (gapped d layout gs) = squeeze (gapped d .compact gs) := by
    induction gs with
    | nil => rfl
    | cons g gs ih =>
      have blank (other : Layout) {r : List Char} :
          squeeze ((g.gap.text other).toList ++ r) = squeeze (' ' :: r) :=
        squeeze_blank_append (Gap.text_blank other g.gap).1 fun c hc =>
          ((Gap.text_blank other g.gap).2 c hc).1
      rw [gapped, gapped, List.flatMap_cons, List.flatMap_cons, List.append_assoc,
        List.append_assoc, blank, blank]
      exact squeeze_append_congr (' ' :: _) ih
  cases fs with
  | nil => rfl
  | cons f fs =>
    rw [toList_render_cons, toList_render_cons]
    exact squeeze_append_congr _ (gaps fs)

end QueryWorkbench.Sql
