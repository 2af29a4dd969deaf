/-
QueryWorkbench.Proofs.Pattern.Excerpt — finding matches in a part of a text.

When what follows a part of a text is blanks and a closing parenthesis, or the end, a pattern that
takes no closing parenthesis and ends in no blanks (`Contained`) has the same matches in the part
as in the whole text there (`matchAt?_embeds`). So a search for all matches finds, between those
that start before the part and those that start behind it, the matches of the part
(`findAll_excerpt`), if no match goes from before the part into it.
-/
import QueryWorkbench.Proofs.Pattern.Finding
import QueryWorkbench.Proofs.Pattern.Locality

namespace QueryWorkbench

open Text

/-! ## Blanks and words -/

namespace Text

section

variable {blanks s : List Char} (blank : ∀ c ∈ blanks, isBlank c = true)
include blank

theorem not_mem_of_blank {c : Char} (written : isBlank c = false) : c ∉ blanks := fun hc => by
  simp [blank c hc] at written

/-- Blanks do not start with a word, nor do they make one start behind them. -/
theorem head?_blank_append (edge : s.head?.any isWord = false) :
    (blanks ++ s).head?.any isWord = false := by
  cases blanks with
  | nil => exact edge
  | cons c blanks => exact isWord_of_isBlank (blank c (List.mem_cons_self ..))

/-- Blanks do not end with a word, nor do they make one end in front of them. -/
theorem getLast?_append_blank (edge : s.getLast?.any isWord = false) :
    (s ++ blanks).getLast?.any isWord = false := by
  rw [List.getLast?_append]
  cases last : blanks.getLast? with
  | none => exact edge
  | some c => exact isWord_of_isBlank (blank c (List.mem_of_getLast? last))

end

end Text

/-- The place between two parts of a text. -/
def Place.between (a b : List Char) : Place := ⟨a.getLast?, a.length, b⟩

/-! ## Ends of matches -/

/-- A place behind something else than a blank, or in front of a word. -/
def Place.Solid (here : Place) : Prop :=
  here.before.any (fun c => !isBlank c) = true ∨ here.rest.head?.any isWord = true

/-- Sets without blanks. -/
def CharSet.noBlank : CharSet → Bool
  | letter c => isWord c
  | exact c => !isBlank c
  | word => true
  | _ => false

theorem CharSet.not_isBlank_of_noBlank {set : CharSet} (none : set.noBlank = true) {c : Char}
    (taken : set.has c = true) : isBlank c = false := by
  cases set with
  | letter k =>
    obtain rfl : keywordLetter c = k := by simpa [has] using taken
    have word : isWord (keywordLetter c) = true := none
    rw [isWord_keywordLetter] at word
    exact not_isBlank_of_isWord word
  | exact k =>
    have same : (c == k) = true := taken
    have outside : (!isBlank k) = true := none
    rw [beq_iff_eq.mp same]
    exact (Bool.not_eq_true' _).mp outside
  | word => exact not_isBlank_of_isWord taken
  | _ => cases none

/-- A tail of blanks and a closing parenthesis, or of blanks alone. -/
inductive ClosingTail : List Char → Prop
  | ended : ClosingTail []
  | closed (more : List Char) : ClosingTail (')' :: more)
  | blank {c : Char} {tail : List Char} : isBlank c = true → ClosingTail tail → ClosingTail (c :: tail)

theorem ClosingTail.edge {tail : List Char} (h : ClosingTail tail) :
    tail.head?.any isWord = false := by
  cases h with
  | ended => rfl
  | closed more => exact (by decide : isWord ')' = false)
  | blank first _ => exact isWord_of_isBlank first

theorem closingTail_append {blanks tail : List Char} (blank : ∀ c ∈ blanks, isBlank c = true)
    (h : ClosingTail tail) : ClosingTail (blanks ++ tail) := by
  induction blanks with
  | nil => exact h
  | cons c blanks ih =>
    obtain ⟨first, rest⟩ := List.forall_mem_cons.mp blank
    exact .blank first (ih rest)

/-- What is taken of a closing tail without its parenthesis is blank. -/
theorem ClosingTail.isBlank_of_append {e t : List Char} (h : ClosingTail (e ++ t))
    (inside : ')' ∉ e) : (∀ c ∈ e, isBlank c = true) ∧ t.head?.any isWord = false := by
  induction e with
  | nil => exact ⟨nofun, h.edge⟩
  | cons c e ih =>
    cases h with
    | closed => simp at inside
    | blank first h =>
      obtain ⟨all, edge⟩ := ih h (fun he => inside (List.mem_cons_of_mem _ he))
      exact ⟨List.forall_mem_cons.mpr ⟨first, all⟩, edge⟩

namespace Pattern

variable {σ : Type}

/-- Whether every match starts in front of a word. The first answer is for all matches, the second
leaves out those that take nothing. -/
def wordStarts : Pattern σ → Bool × Bool
  | nothing | wordEdge | finish | notAhead _ => (false, true)
  | ahead inner => (inner.wordStarts.1, true)
  | one set => (set.ofWords, set.ofWords)
  | greedy set => (false, set.ofWords)
  | lazy _ => (false, false)
  | seq first second =>
    let (a, a') := first.wordStarts
    let (b, b') := second.wordStarts
    (a || (a' && b), a || (a' && b'))
  | or first second =>
    let (a, a') := first.wordStarts
    let (b, b') := second.wordStarts
    (a && b, a' && b')
  | option inner => (false, inner.wordStarts.2)
  | keep _ inner => inner.wordStarts

theorem head?_of_wordStarts {p : Pattern σ} {here : Place} {o : Place × Kept σ}
    (ho : o ∈ p.outcomes here) : (p.wordStarts.1 = true → here.rest.head?.any isWord = true) ∧
      (p.wordStarts.2 = true → o.1 = here ∨ here.rest.head?.any isWord = true) := by
  induction p generalizing here o with
  | nothing =>
    obtain rfl := List.mem_singleton.mp ho
    exact ⟨by simp [wordStarts], fun _ => .inl rfl⟩
  | one set =>
    obtain ⟨c, rest, split, taken, -⟩ := mem_outcomes_one ho
    have word : set.ofWords = true → here.rest.head?.any isWord = true := fun words => by
      simpa [split] using CharSet.isWord_of_ofWords words taken
    exact ⟨word, fun words => .inr (word words)⟩
  | seq first second ih₁ ih₂ =>
    obtain ⟨o₁, h₁, o₂, h₂, rfl⟩ := mem_outcomes_seq.mp ho
    have first := ih₁ h₁
    have second := ih₂ h₂
    simp only [wordStarts, Bool.or_eq_true, Bool.and_eq_true]
    constructor
    · rintro (strict | ⟨stays, strict⟩)
      · exact first.1 strict
      · exact (first.2 stays).elim (fun same => same ▸ second.1 strict) id
    · rintro (strict | ⟨stays, stays'⟩)
      · exact .inr (first.1 strict)
      · exact (first.2 stays).elim (fun same => same ▸ second.2 stays') .inr
  | or first second ih₁ ih₂ =>
    simp only [wordStarts, Bool.and_eq_true]
    rcases mem_outcomes_or.mp ho with ho | ho
    · exact ⟨fun both => (ih₁ ho).1 both.1, fun both => (ih₁ ho).2 both.1⟩
    · exact ⟨fun both => (ih₂ ho).1 both.2, fun both => (ih₂ ho).2 both.2⟩
  | option inner ih =>
    rcases mem_outcomes_option.mp ho with ho | rfl
    · exact ⟨by simp [wordStarts], (ih ho).2⟩
    · exact ⟨by simp [wordStarts], fun _ => .inl rfl⟩
  | greedy set =>
    obtain ⟨a, rest, split, all, rfl⟩ := mem_outcomes_greedy ho
    refine ⟨by simp [wordStarts], fun words => ?_⟩
    obtain ⟨before, position, rest'⟩ := here
    obtain rfl : rest' = a ++ rest := split
    cases a with
    | nil => exact .inl rfl
    | cons c a => exact .inr (CharSet.isWord_of_ofWords words (all c (List.mem_cons_self ..)))
  | lazy set => exact ⟨by simp [wordStarts], by simp [wordStarts]⟩
  | keep slot inner ih =>
    obtain ⟨o', ho', rfl⟩ := mem_outcomes_keep.mp ho
    have starts := ih ho'
    exact starts
  | ahead inner ih =>
    obtain ⟨o', found, rfl⟩ := mem_outcomes_ahead.mp ho
    exact ⟨(ih (List.mem_of_head? found)).1, fun _ => .inl rfl⟩
  | notAhead inner =>
    obtain ⟨-, rfl⟩ := mem_outcomes_notAhead.mp ho
    exact ⟨by simp [wordStarts], fun _ => .inl rfl⟩
  | wordEdge => exact ⟨by simp [wordStarts], fun _ => .inl (congrArg Prod.fst (mem_outcomes_wordEdge ho).2)⟩
  | finish =>
    obtain ⟨-, rfl⟩ := mem_outcomes_finish.mp ho
    exact ⟨by simp [wordStarts], fun _ => .inl rfl⟩

/-- Whether every match ends behind something else than a blank, or in front of a word. The first
answer is for all matches, the second leaves out those that take nothing. -/
def solidEnds : Pattern σ → Bool × Bool
  | nothing | wordEdge | finish | notAhead _ => (false, true)
  | ahead inner => (inner.wordStarts.1, true)
  | one set => (set.noBlank, set.noBlank)
  | greedy set => (false, set.noBlank)
  | lazy _ => (false, false)
  | seq first second =>
    let (a, a') := first.solidEnds
    let (b, b') := second.solidEnds
    (b || (a && b'), b || (a' && b'))
  | or first second =>
    let (a, a') := first.solidEnds
    let (b, b') := second.solidEnds
    (a && b, a' && b')
  | option inner => (false, inner.solidEnds.2)
  | keep _ inner => inner.solidEnds

theorem solid_of_mem_outcomes {p : Pattern σ} {here : Place} {o : Place × Kept σ}
    (ho : o ∈ p.outcomes here) : (p.solidEnds.1 = true → o.1.Solid) ∧
      (p.solidEnds.2 = true → o.1 = here ∨ o.1.Solid) := by
  induction p generalizing here o with
  | nothing =>
    obtain rfl := List.mem_singleton.mp ho
    exact ⟨by simp [solidEnds], fun _ => .inl rfl⟩
  | one set =>
    obtain ⟨c, rest, -, taken, rfl⟩ := mem_outcomes_one ho
    have solid : set.noBlank = true → Place.Solid ⟨some c, here.position + 1, rest⟩ := fun none =>
      .inl (by simpa using CharSet.not_isBlank_of_noBlank none taken)
    exact ⟨solid, fun none => .inr (solid none)⟩
  | seq first second ih₁ ih₂ =>
    obtain ⟨o₁, h₁, o₂, h₂, rfl⟩ := mem_outcomes_seq.mp ho
    have first := ih₁ h₁
    have second := ih₂ h₂
    simp only [solidEnds, Bool.or_eq_true, Bool.and_eq_true]
    constructor
    · rintro (strict | ⟨strict, stays⟩)
      · exact second.1 strict
      · exact (second.2 stays).elim (fun same => same ▸ first.1 strict) id
    · rintro (strict | ⟨stays, stays'⟩)
      · exact .inr (second.1 strict)
      · exact (second.2 stays').elim (fun same => same ▸ first.2 stays) .inr
  | or first second ih₁ ih₂ =>
    simp only [solidEnds, Bool.and_eq_true]
    rcases mem_outcomes_or.mp ho with ho | ho
    · exact ⟨fun both => (ih₁ ho).1 both.1, fun both => (ih₁ ho).2 both.1⟩
    · exact ⟨fun both => (ih₂ ho).1 both.2, fun both => (ih₂ ho).2 both.2⟩
  | option inner ih =>
    rcases mem_outcomes_option.mp ho with ho | rfl
    · exact ⟨by simp [solidEnds], (ih ho).2⟩
    · exact ⟨by simp [solidEnds], fun _ => .inl rfl⟩
  | greedy set =>
    obtain ⟨a, rest, split, all, rfl⟩ := mem_outcomes_greedy ho
    refine ⟨by simp [solidEnds], fun none => ?_⟩
    cases last : a.getLast? with
    | none =>
      obtain rfl := List.getLast?_eq_none_iff.mp last
      obtain ⟨before, position, rest'⟩ := here
      obtain rfl : rest' = rest := split
      exact .inl rfl
    | some c =>
      have taken := all c (List.mem_of_getLast? last)
      exact .inr (.inl (by simpa using CharSet.not_isBlank_of_noBlank none taken))
  | lazy set => exact ⟨by simp [solidEnds], by simp [solidEnds]⟩
  | keep slot inner ih =>
    obtain ⟨o', ho', rfl⟩ := mem_outcomes_keep.mp ho
    have ends := ih ho'
    exact ends
  | ahead inner ih =>
    obtain ⟨o', found, rfl⟩ := mem_outcomes_ahead.mp ho
    exact ⟨fun word => .inr ((head?_of_wordStarts (List.mem_of_head? found)).1 word),
      fun _ => .inl rfl⟩
  | notAhead inner =>
    obtain ⟨-, rfl⟩ := mem_outcomes_notAhead.mp ho
    exact ⟨by simp [solidEnds], fun _ => .inl rfl⟩
  | wordEdge => exact ⟨by simp [solidEnds], fun _ => .inl (congrArg Prod.fst (mem_outcomes_wordEdge ho).2)⟩
  | finish =>
    obtain ⟨-, rfl⟩ := mem_outcomes_finish.mp ho
    exact ⟨by simp [solidEnds], fun _ => .inl rfl⟩

/-! ## Matches at a place -/

/-- A pattern that stays inside a parenthesis when it starts there. -/
structure Contained (p : Pattern σ) : Prop where
  near : p.isLocal = true
  inside : p.takes ')' = false
  ends : p.solidEnds.2 = true

/-- A match in the whole text that is one in a part of it. -/
structure MatchEmbeds (shift : Nat) (tail : List Char) (m m' : Match σ) : Prop where
  start : Place.Embeds shift tail m.start m'.start
  stop : Place.Embeds shift tail m.stop m'.stop
  kept : KeptEmbeds shift tail m.kept m'.kept

section

variable {p : Pattern σ} {shift : Nat} {tail : List Char} {outer inner : Place}

/-- A contained pattern does not go on into the tail. -/
theorem Contained.infront (h : Contained p) (closing : ClosingTail tail)
    (embeds : Place.Embeds shift tail outer inner) {o : Place × Kept σ}
    (ho : o ∈ p.outcomes outer) : o.1.infront tail = true := by
  obtain ⟨a, advances, all⟩ := exists_advances ho
  rcases infront_or_of_advances embeds.rest advances with infront | ⟨e, e_ne, longer, split⟩
  · exact infront
  have inside : ')' ∉ e := fun he =>
    not_mem_of_takes h.inside all (longer ▸ List.mem_append_right _ he)
  obtain ⟨blank, edge⟩ := (split ▸ closing).isBlank_of_append inside
  have behind : o.1.before = some (e.getLast e_ne) := by
    rw [advances.before, longer, List.getLast?_append, List.getLast?_eq_some_getLast e_ne]
    rfl
  rcases (solid_of_mem_outcomes ho).2 h.ends with same | solid | solid
  · rw [same]
    exact embeds.infront
  · rw [behind] at solid
    simp [blank _ (List.getLast_mem e_ne)] at solid
  · rw [edge] at solid
    cases solid

/-- A contained pattern has the same ways to match in a part of a text as in the whole text. -/
theorem Contained.outcomes_embeds (h : Contained p) (closing : ClosingTail tail)
    (embeds : Place.Embeds shift tail outer inner) :
    List.Forall₂ (OutcomeEmbeds shift tail) (p.outcomes outer) (p.outcomes inner) := by
  have all := Pattern.outcomes_embeds h.near closing.edge embeds
  rwa [List.filter_eq_self.mpr fun o ho => h.infront closing embeds ho] at all

/-- A contained pattern has the same match in a part of a text as in the whole text. -/
theorem Contained.matchAt?_embeds (h : Contained p) (closing : ClosingTail tail)
    (embeds : Place.Embeds shift tail outer inner) :
    (p.matchAt? outer = none ∧ p.matchAt? inner = none) ∨
      ∃ m m', p.matchAt? outer = some m ∧ p.matchAt? inner = some m' ∧
        MatchEmbeds shift tail m m' := by
  rw [matchAt?_eq_head?, matchAt?_eq_head?]
  have all := h.outcomes_embeds closing embeds
  generalize p.outcomes outer = ways at all ⊢
  generalize p.outcomes inner = ways' at all ⊢
  cases all with
  | nil => exact .inl ⟨rfl, rfl⟩
  | cons first _ => exact .inr ⟨_, _, rfl, rfl, embeds, first.1, first.2⟩

end

/-- Lists related item by item have partners for each item. -/
theorem exists_of_forall₂ {α β : Type} {R : α → β → Prop} {l : List α} {l' : List β}
    (h : List.Forall₂ R l l') : (∀ a ∈ l, ∃ b ∈ l', R a b) ∧ ∀ b ∈ l', ∃ a ∈ l, R a b := by
  induction h with
  | nil => exact ⟨nofun, nofun⟩
  | cons first _ ih =>
    simp only [List.forall_mem_cons, List.exists_mem_cons_iff]
    exact ⟨⟨.inl first, fun a ha => .inr (ih.1 a ha)⟩, .inl first, fun b hb => .inr (ih.2 b hb)⟩

/-! ## Kept parts -/

section

variable [DecidableEq σ] {shift : Nat} {tail : List Char} {m m' : Match σ} (slot : σ)

theorem get?_embeds {kept kept' : Kept σ} (h : KeptEmbeds shift tail kept kept') :
    Option.Rel (fun a b : Span => a.length = b.length ∧ b.length ≤ b.start.rest.length ∧
      Place.Embeds shift tail a.start b.start) (Assoc.get? slot kept) (Assoc.get? slot kept') := by
  induction h with
  | nil => exact .none
  | @cons a b _ _ first _ ih =>
    obtain ⟨same, rest⟩ := first
    obtain ⟨key, span⟩ := a
    obtain ⟨key', span'⟩ := b
    obtain rfl : key = key' := same
    rw [Assoc.get?, Assoc.get?]
    split
    · exact .some rest
    · exact ih

/-- A part kept in the whole text is the part kept in the excerpt. -/
theorem MatchEmbeds.part?_eq (h : MatchEmbeds shift tail m m') : m.part? slot = m'.part? slot := by
  have spans := get?_embeds slot h.kept
  rw [Match.part?, Match.part?]
  generalize Assoc.get? slot m.kept = span at spans ⊢
  generalize Assoc.get? slot m'.kept = span' at spans ⊢
  cases spans with
  | none => rfl
  | some both =>
    obtain ⟨same, within, start⟩ := both
    rw [Option.map_some, Option.map_some, Span.chars, Span.chars, start.rest, same,
      List.take_append_of_le_length within]

theorem MatchEmbeds.part_eq (h : MatchEmbeds shift tail m m') : m.part slot = m'.part slot := by
  rw [Match.part, Match.part, h.part?_eq]

end

/-! ## All matches -/

section

variable {p : Pattern σ} {before : Option Char} {position free : Nat} {s : List Char}

/-- Every match that is found is the match at a place of the text. -/
theorem exists_of_mem_collect {m : Match σ} (hm : m ∈ p.collect free [] before position s) :
    ∃ a b, s = a ++ b ∧ b ≠ [] ∧
      p.matchAt? ⟨a.getLast?.or before, position + a.length, b⟩ = some m := by
  induction s generalizing free before position with
  | nil => cases hm
  | cons c s ih =>
    have further : ∀ {free}, m ∈ p.collect free [] (some c) (position + 1) s → ∃ a b,
        c :: s = a ++ b ∧ b ≠ [] ∧
          p.matchAt? ⟨a.getLast?.or before, position + a.length, b⟩ = some m := by
      intro free hm
      obtain ⟨a, b, rfl, nonempty, found⟩ := ih hm
      refine ⟨c :: a, b, rfl, nonempty, ?_⟩
      rwa [getLast?_cons_or, List.length_cons, Nat.add_comm a.length, ← Nat.add_assoc]
    rw [collect] at hm
    split at hm
    · exact further hm
    · split at hm
      · rename_i found
        rw [collect_eq] at hm
        rcases List.mem_append.mp hm with hm | hm
        · obtain rfl := List.mem_singleton.mp hm
          exact ⟨[], c :: s, rfl, List.cons_ne_nil _ _, found⟩
        · exact further hm
      · exact further hm

theorem exists_of_mem_findAll {text : List Char} {m : Match σ} (hm : m ∈ p.findAll text) :
    ∃ a b, text = a ++ b ∧ b ≠ [] ∧ p.matchAt? (.between a b) = some m := by
  obtain ⟨a, b, split, nonempty, found⟩ := exists_of_mem_collect hm
  rw [Option.or_none, Nat.zero_add] at found
  exact ⟨a, b, split, nonempty, found⟩

theorem start_of_matchAt? {here : Place} {m : Match σ} (h : p.matchAt? here = some m) :
    m.start = here := by
  rw [matchAt?_eq_head?] at h
  obtain ⟨o, -, rfl⟩ := Option.map_eq_some_iff.mp h
  rfl

theorem le_start_of_mem_collect {m : Match σ} (hm : m ∈ p.collect free [] before position s) :
    position ≤ m.start.position := by
  obtain ⟨a, b, -, -, found⟩ := exists_of_mem_collect hm
  rw [start_of_matchAt? found]
  exact Nat.le_add_right _ _

/-- No match that starts in a front goes on beyond it. -/
def StopsIn (p : Pattern σ) (front rest : List Char) : Prop :=
  ∀ a b, front = a ++ b → b ≠ [] → ∀ m,
    p.matchAt? (.between a (b ++ rest)) = some m → m.stop.position ≤ front.length

/-- A search goes over a front first, and then over the rest as if nothing was found before. -/
theorem findAll_append_of_stopsIn {front rest : List Char} (stops : StopsIn p front rest) :
    ∃ early, p.findAll (front ++ rest) =
        early ++ p.matchesFrom front.getLast? front.length rest ∧
      ∀ m ∈ early, m.stop.position ≤ front.length := by
  -- Goes over the part `b` of the front, `a` being what is behind.
  have walk : ∀ b a free, front = a ++ b → free ≤ front.length → ∃ early,
      p.collect free [] a.getLast? a.length (b ++ rest) =
          early ++ p.matchesFrom front.getLast? front.length rest ∧
        ∀ m ∈ early, m.stop.position ≤ front.length := by
    intro b
    induction b with
    | nil =>
      intro a free split le
      rw [List.append_nil] at split
      subst split
      exact ⟨[], collect_of_le le, nofun⟩
    | cons c b ih =>
      intro a free split le
      have longer : front = (a ++ [c]) ++ b := by rw [split, List.append_assoc]; rfl
      have step : ∀ free, free ≤ front.length → ∃ early,
          p.collect free [] (some c) (a.length + 1) (b ++ rest) =
              early ++ p.matchesFrom front.getLast? front.length rest ∧
            ∀ m ∈ early, m.stop.position ≤ front.length := by
        intro free le
        have := ih (a ++ [c]) free longer le
        rwa [List.getLast?_append, List.length_append] at this
      have within : a.length + 1 ≤ front.length := by
        rw [split, List.length_append, List.length_cons]
        omega
      rw [List.cons_append, collect]
      split
      · exact step free le
      · split
        · rename_i m found
          have stop := stops a (c :: b) split (List.cons_ne_nil _ _) m found
          obtain ⟨early, same, all⟩ := step (max m.stop.position (a.length + 1)) (by omega)
          exact ⟨m :: early, by rw [collect_eq, same]; rfl, List.forall_mem_cons.mpr ⟨stop, all⟩⟩
        · exact step free le
  have whole := walk front [] 0 rfl (Nat.zero_le _)
  exact whole

/-- A match is found if no match goes on beyond the place where it starts. -/
theorem mem_findAll_of_stopsIn {front rest : List Char} (stops : StopsIn p front rest)
    (nonempty : rest ≠ []) {m : Match σ} (h : p.matchAt? (.between front rest) = some m) :
    m ∈ p.findAll (front ++ rest) := by
  obtain ⟨early, split, -⟩ := findAll_append_of_stopsIn stops
  obtain ⟨c, rest, rfl⟩ := List.exists_cons_of_ne_nil nonempty
  rw [split, matchesFrom, collect, if_neg (Nat.not_lt_zero _)]
  rw [Place.between] at h
  simp only [h]
  refine List.mem_append_right _ ?_
  rw [collect_eq]
  exact List.mem_append_left _ (List.mem_singleton.mpr rfl)

/-- A search in a part of a text finds the same matches as in the whole text there. -/
theorem Contained.collect_embeds (h : Contained p) {shift : Nat} {tail : List Char}
    (closing : ClosingTail tail) {before' : Option Char} {position' free' : Nat}
    (embeds : Place.Embeds shift tail ⟨before, position, s ++ tail⟩ ⟨before', position', s⟩)
    (moved : free = free' + shift) :
    ∃ mid late, p.collect free [] before position (s ++ tail) = mid ++ late ∧
      List.Forall₂ (MatchEmbeds shift tail) mid (p.collect free' [] before' position' s) ∧
      ∀ m ∈ late, position + s.length ≤ m.start.position := by
  induction s generalizing before before' position position' free free' with
  | nil => exact ⟨[], _, rfl, .nil, fun m hm => le_start_of_mem_collect hm⟩
  | cons c s ih =>
    have place := embeds.position
    simp only at place
    have step := fun {free free' : Nat} (moved : free = free' + shift) => ih embeds.next moved
    rw [List.length_cons, Nat.add_comm s.length, ← Nat.add_assoc, List.cons_append, collect, collect]
    by_cases taken : position < free
    · rw [if_pos taken, if_pos (by omega)]
      exact step moved
    · rw [if_neg taken, if_neg (by omega)]
      rcases h.matchAt?_embeds closing embeds with ⟨none, none'⟩ | ⟨m, m', found, found', both⟩
      · rw [List.cons_append] at none
        rw [none, none']
        exact step moved
      · have stop := both.stop.position
        obtain ⟨mid, late, same, all, behind⟩ := step (show max m.stop.position (position + 1) =
          max m'.stop.position (position' + 1) + shift by omega)
        rw [List.cons_append] at found
        rw [found, found']
        refine ⟨m :: mid, late, ?_, ?_, behind⟩
        · simp only
          rw [collect_eq, same]
          rfl
        · simp only
          rw [collect_eq]
          exact .cons both all

/-- A search finds in a part of a text what it finds in the whole text there, if it does not go
into the part from before. -/
theorem Contained.findAll_excerpt (h : Contained p) {front part tail : List Char}
    (edge : front.getLast?.any isWord = false) (closing : ClosingTail tail)
    (stops : StopsIn p front (part ++ tail)) :
    ∃ early mid late, p.findAll (front ++ (part ++ tail)) = early ++ (mid ++ late) ∧
      List.Forall₂ (MatchEmbeds front.length tail) mid (p.findAll part) ∧
      (∀ m ∈ early, m.stop.position ≤ front.length) ∧
      ∀ m ∈ late, front.length + part.length ≤ m.start.position := by
  obtain ⟨early, split, before⟩ := findAll_append_of_stopsIn stops
  have embeds : Place.Embeds front.length tail ⟨front.getLast?, front.length, part ++ tail⟩
      ⟨none, 0, part⟩ := ⟨rfl, (Nat.zero_add _).symm, edge⟩
  obtain ⟨mid, late, same, all, behind⟩ := h.collect_embeds closing embeds
    (show front.length = 0 + front.length from (Nat.zero_add _).symm)
  rw [collect_of_le (Nat.le_refl _)] at same
  exact ⟨early, mid, late, by rw [split, same], all, before, behind⟩

end

end Pattern

end QueryWorkbench
