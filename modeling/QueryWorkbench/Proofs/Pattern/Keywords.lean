/-
QueryWorkbench.Proofs.Pattern.Keywords — patterns that keywords start.

A keyword takes a spelling of it in any case, and if what follows cannot go on with a word, that
spelling is a whole word of the text. `Opens p ks` sums this up for a pattern: it only matches
where one of the keywords `ks` starts, so it matches nowhere in a text that lacks them.
-/
import QueryWorkbench.Proofs.Pattern.Matching

namespace QueryWorkbench.Pattern

open Text

variable {σ : Type} {p q : Pattern σ} {ps : List (Pattern σ)} {here mid there : Place}
  {k₁ k₂ parts : Kept σ} {before : Option Char} {position : Nat} {w rest : List Char}

/-! ## Patterns one after the other -/

theorem outcomes_all_cons (p : Pattern σ) (ps : List (Pattern σ)) (here : Place) :
    (all (p :: ps)).outcomes here = (seq p (all ps)).outcomes here := by
  cases ps with
  | nil => simp [all, outcomes]
  | cons q ps => rfl

theorem first_all_cons :
    First (all (p :: ps)) here there parts ↔ First (seq p (all ps)) here there parts := by
  rw [First, First, outcomes_all_cons]

/-! ## Keywords -/

/-- The pattern of some letters, in any case. -/
def spelling (cs : List Char) : Pattern σ := all (cs.map fun c => one (.letter c.toLower))

theorem first_spelling {cs : List Char} (spelled : w.map keywordLetter = cs.map Char.toLower) :
    First (spelling (σ := σ) cs) ⟨before, position, w ++ rest⟩
      ⟨w.getLast?.or before, position + w.length, rest⟩ [] := by
  induction cs generalizing w before position with
  | nil =>
    obtain rfl := List.map_eq_nil_iff.mp spelled
    rfl
  | cons c cs ih =>
    cases w with
    | nil => cases spelled
    | cons d w =>
      rw [List.map_cons, List.map_cons, List.cons.injEq] at spelled
      have taken : CharSet.has (.letter c.toLower) d = true := by
        simp [CharSet.has, spelled.1]
      have more : First (spelling (σ := σ) cs) ⟨some d, position + 1, w ++ rest⟩
          ⟨w.getLast?.or (some d), position + 1 + w.length, rest⟩ [] := ih spelled.2
      rw [getLast?_cons_or, List.length_cons, Nat.add_comm w.length, ← Nat.add_assoc]
      exact first_all_cons.mpr ((first_one taken).seq more)

theorem mem_outcomes_spelling {cs : List Char} {o : Place × Kept σ}
    (h : o ∈ (spelling cs).outcomes here) :
    ∃ a rest, here.rest = a ++ rest ∧ a.map keywordLetter = cs.map Char.toLower ∧
      o = (⟨a.getLast?.or here.before, here.position + a.length, rest⟩, []) := by
  induction cs generalizing here o with
  | nil =>
    obtain rfl := List.mem_singleton.mp h
    exact ⟨[], here.rest, rfl, rfl, rfl⟩
  | cons c cs ih =>
    rw [spelling, List.map_cons, outcomes_all_cons] at h
    obtain ⟨o₁, h₁, o₂, h₂, rfl⟩ := mem_outcomes_seq.mp h
    obtain ⟨d, rest₁, split₁, taken, rfl⟩ := mem_outcomes_one h₁
    obtain ⟨a, rest, split, spelled, rfl⟩ := ih h₂
    refine ⟨d :: a, rest, ?_, ?_, ?_⟩
    · have split : rest₁ = a ++ rest := split
      rw [split₁, split, List.cons_append]
    · have same : keywordLetter d = c.toLower := by simpa [CharSet.has] using taken
      rw [List.map_cons, List.map_cons, spelled, same]
    · rw [getLast?_cons_or, List.length_cons, Nat.add_comm a.length, ← Nat.add_assoc]
      rfl

/-- A keyword takes a spelling of it. -/
theorem first_keyword {k : String} (spelled : Spells k w) :
    First (keyword (σ := σ) k) ⟨before, position, w ++ rest⟩
      ⟨w.getLast?.or before, position + w.length, rest⟩ [] :=
  first_spelling spelled

theorem mem_outcomes_keyword {k : String} {o : Place × Kept σ}
    (h : o ∈ (keyword k).outcomes here) :
    ∃ a rest, here.rest = a ++ rest ∧ Spells k a ∧
      o = (⟨a.getLast?.or here.before, here.position + a.length, rest⟩, []) :=
  mem_outcomes_spelling h

theorem mem_outcomes_anyOf {o : Place × Kept σ} :
    o ∈ (anyOf p ps).outcomes here ↔ ∃ q ∈ p :: ps, o ∈ q.outcomes here := by
  induction ps generalizing p with
  | nil => simp [anyOf]
  | cons q ps ih =>
    rw [anyOf, outcomes, List.mem_append, ih]
    simp only [List.mem_cons, exists_eq_or_imp]

theorem outcomes_anyOf_ne_nil (hq : q ∈ p :: ps) (some : q.outcomes here ≠ []) :
    (anyOf p ps).outcomes here ≠ [] := by
  obtain ⟨o, ho⟩ := List.exists_mem_of_ne_nil _ some
  exact List.ne_nil_of_mem (mem_outcomes_anyOf.mpr ⟨q, hq, ho⟩)

/-- One of several patterns with the edge of a word behind it. -/
theorem outcomes_whole_anyOf_ne_nil (hq : q ∈ p :: ps) (h : First q here mid parts)
    (edge : mid.atWordEdge = true) : (whole (anyOf p ps)).outcomes here ≠ [] := by
  have found : (mid, parts) ∈ (anyOf p ps).outcomes here :=
    mem_outcomes_anyOf.mpr ⟨q, hq, List.mem_of_head? h⟩
  have stays : (mid, []) ∈ (wordEdge (σ := σ)).outcomes mid := List.mem_of_head? (first_wordEdge edge)
  exact List.ne_nil_of_mem (mem_outcomes_seq.mpr ⟨_, found, _, stays, rfl⟩)

theorem exists_of_mem_outcomes_anyKeyword {k : String} {ks : List String} {o : Place × Kept σ}
    (h : o ∈ (anyKeyword (k :: ks)).outcomes here) :
    ∃ j ∈ k :: ks, o ∈ (keyword j).outcomes here := by
  obtain ⟨p, hp, h⟩ := mem_outcomes_anyOf.mp h
  rcases List.mem_cons.mp hp with rfl | hp
  · exact ⟨k, List.mem_cons_self .., h⟩
  · obtain ⟨j, hj, rfl⟩ := List.mem_map.mp hp
    exact ⟨j, List.mem_cons_of_mem _ hj, h⟩

/-- The letter that a keyword starts with, in small form. -/
def initial (k : String) : Option Char := k.toList.head?.map Char.toLower

/-- A keyword is not found where one with another initial is spelled. -/
theorem outcomes_keyword_eq_nil {k j : String} (some : k ≠ "") (nonempty : w ≠ [])
    (spelled : Spells j w) (apart : initial k ≠ initial j) :
    (keyword (σ := σ) k).outcomes ⟨before, position, w ++ rest⟩ = [] := by
  have head {i : String} {a : List Char} (spelled : Spells i a) :
      a.head?.map keywordLetter = initial i := by
    rw [← List.head?_map, spelled, List.head?_map, initial]
  rw [List.eq_nil_iff_forall_not_mem]
  intro o h
  obtain ⟨a, r, split, taken, -⟩ := mem_outcomes_keyword h
  have a_ne : a ≠ [] := by
    rintro rfl
    exact some (String.toList_eq_nil_iff.mp (List.map_eq_nil_iff.mp taken.symm))
  obtain ⟨c, a, rfl⟩ := List.exists_cons_of_ne_nil a_ne
  obtain ⟨e, w, rfl⟩ := List.exists_cons_of_ne_nil nonempty
  obtain ⟨same, -⟩ := List.cons.inj split
  refine apart ((head taken).symm.trans (Eq.trans ?_ (head spelled)))
  rw [List.head?_cons, List.head?_cons, same]

/-- Of keywords with different initials the one that is spelled is taken. -/
theorem first_anyKeyword {k j : String} {ks : List String} (hj : j ∈ k :: ks)
    (all : ∀ i ∈ k :: ks, i ≠ "") (apart : ((k :: ks).map initial).Nodup) (nonempty : w ≠ [])
    (spelled : Spells j w) : First (anyKeyword (σ := σ) (k :: ks)) ⟨before, position, w ++ rest⟩
      ⟨w.getLast?.or before, position + w.length, rest⟩ [] := by
  induction ks generalizing k with
  | nil =>
    obtain rfl := List.mem_singleton.mp hj
    exact first_keyword spelled
  | cons i ks ih =>
    show First (or (keyword k) (anyKeyword (i :: ks))) _ _ _
    rw [First, outcomes]
    rcases List.mem_cons.mp hj with rfl | hj
    · rw [List.head?_append, (first_keyword spelled : First (keyword j) _ _ _)]
      rfl
    · obtain ⟨other, apart⟩ := List.nodup_cons.mp apart
      have differs : initial k ≠ initial j := fun same =>
        other (same ▸ List.mem_map_of_mem hj)
      rw [outcomes_keyword_eq_nil (all k (List.mem_cons_self ..)) nonempty spelled differs,
        List.nil_append]
      exact ih hj (fun i hi => all i (List.mem_cons_of_mem _ hi)) apart

/-! ## Whole words -/

/-- Keywords that are made of word characters. -/
def AreWords (ks : List String) : Prop := ∀ k ∈ ks, k ≠ "" ∧ ∀ c ∈ k.toList, isWord c.toLower = true

instance (ks : List String) : Decidable (AreWords ks) :=
  inferInstanceAs (Decidable (∀ k ∈ ks, k ≠ "" ∧ ∀ c ∈ k.toList, isWord c.toLower = true))

section

variable {ks : List String} (words : AreWords ks) {k : String} (hk : k ∈ ks)
include words hk

theorem isWord_of_spells {a : List Char} (spelled : Spells k a) : ∀ c ∈ a, isWord c = true := by
  intro c hc
  have listed : keywordLetter c ∈ k.toList.map Char.toLower := spelled ▸ List.mem_map_of_mem hc
  obtain ⟨d, hd, same⟩ := List.mem_map.mp listed
  rw [← isWord_keywordLetter, ← same]
  exact (words k hk).2 d hd

theorem ne_nil_of_spells {a : List Char} (spelled : Spells k a) : a ≠ [] := by
  rintro rfl
  have empty : k.toList = [] := List.map_eq_nil_iff.mp spelled.symm
  exact (words k hk).1 (String.toList_eq_nil_iff.mp empty)

theorem leading_of_spells {a : List Char} (spelled : Spells k a)
    (edge : rest.head?.any isWord = false) : leading (a ++ rest) = a :=
  leading_append_of_all (isWord_of_spells words hk spelled) edge

end

/-- A keyword with the edge of a word behind it is the word that the text starts with. -/
theorem exists_spells_of_whole {k : String} {ks : List String} (words : AreWords (k :: ks))
    {o : Place × Kept σ} (h : o ∈ (whole (anyKeyword (k :: ks))).outcomes here) :
    ∃ j ∈ k :: ks, Spells j (leading here.rest) := by
  obtain ⟨o₁, h₁, o₂, h₂, rfl⟩ := mem_outcomes_seq.mp h
  obtain ⟨j, hj, h₁⟩ := exists_of_mem_outcomes_anyKeyword h₁
  obtain ⟨a, rest, split, spelled, rfl⟩ := mem_outcomes_keyword h₁
  obtain ⟨edge, -⟩ := mem_outcomes_wordEdge h₂
  have a_ne := ne_nil_of_spells words hj spelled
  have last_word : a.getLast?.or here.before = some (a.getLast a_ne) := by
    rw [List.getLast?_eq_some_getLast a_ne]
    rfl
  have last_isWord := isWord_of_spells words hj spelled _ (List.getLast_mem a_ne)
  have outside : rest.head?.any isWord = false := by
    simpa [Place.atWordEdge, last_word, last_isWord] using edge
  refine ⟨j, hj, ?_⟩
  rw [split, leading_of_spells words hj spelled outside]
  exact spelled

theorem outcomes_whole_eq_nil {k : String} {ks : List String} (words : AreWords (k :: ks))
    (other : ∀ j ∈ k :: ks, ¬ Spells j (leading here.rest)) :
    (whole (σ := σ) (anyKeyword (k :: ks))).outcomes here = [] := by
  rw [List.eq_nil_iff_forall_not_mem]
  intro o h
  obtain ⟨j, hj, spelled⟩ := exists_spells_of_whole words h
  exact other j hj spelled

/-! ## Patterns that keywords start -/

/-- A pattern that only matches where a word has ended. -/
def NeedsEdge (p : Pattern σ) : Prop :=
  ∀ here, p.outcomes here ≠ [] → here.rest.head?.any isWord = false

/-- A pattern that only matches texts that start with one of some keywords. -/
def Starts (p : Pattern σ) (ks : List String) : Prop :=
  ∀ here, p.outcomes here ≠ [] → ∃ k ∈ ks, Spells k (leading here.rest) ∧ leading here.rest ≠ []

/-- A pattern that only matches where one of some keywords starts as a word. -/
def Opens (p : Pattern σ) (ks : List String) : Prop :=
  ∀ here, p.outcomes here ≠ [] →
    here.before.any isWord = false ∧ ∃ k ∈ ks, Spells k (leading here.rest) ∧ leading here.rest ≠ []

theorem needsEdge_blank : NeedsEdge (someBlanks (σ := σ)) := by
  intro here h
  obtain ⟨o, ho⟩ := List.exists_mem_of_ne_nil _ h
  obtain ⟨a, rest, a_ne, split, all, -⟩ := mem_outcomes_run ho
  obtain ⟨c, a, rfl⟩ := List.exists_cons_of_ne_nil a_ne
  have blank : isBlank c = true := all c (List.mem_cons_self ..)
  rw [split]
  exact isWord_of_isBlank blank

theorem needsEdge_someBlanks (q : Pattern σ) : NeedsEdge (seq someBlanks q) :=
  fun here some => needsEdge_blank here fun none => some (outcomes_seq_eq_nil_of_left none)

/-- Keywords with an edge behind them start a pattern. -/
theorem starts_anyKeyword {k : String} {ks : List String} (words : AreWords (k :: ks))
    (edge : NeedsEdge q) : Starts (seq (anyKeyword (k :: ks)) q) (k :: ks) := by
  intro here some
  obtain ⟨o, ho, more⟩ := outcomes_seq_ne_nil.mp some
  obtain ⟨j, hj, ho⟩ := exists_of_mem_outcomes_anyKeyword ho
  obtain ⟨a, rest, split, spelled, rfl⟩ := mem_outcomes_keyword ho
  have outside : rest.head?.any isWord = false := edge _ more
  have starts : leading here.rest = a := by
    rw [split, leading_of_spells words hj spelled outside]
  exact ⟨j, hj, starts ▸ spelled, starts ▸ ne_nil_of_spells words hj spelled⟩

theorem starts_whole_keyword {k : String} (words : AreWords [k]) :
    Starts (whole (σ := σ) (keyword k)) [k] := by
  intro here h
  obtain ⟨o, ho⟩ := List.exists_mem_of_ne_nil _ h
  obtain ⟨j, hj, spelled⟩ := exists_spells_of_whole words ho
  exact ⟨j, hj, spelled, ne_nil_of_spells words hj spelled⟩

/-- Of several patterns each is started by the keywords that start any of them. -/
theorem starts_whole_anyOf {ks : List String} (each : ∀ q ∈ p :: ps, Starts (whole q) ks) :
    Starts (whole (anyOf p ps)) ks := by
  intro here some
  obtain ⟨o, ho, edge⟩ := outcomes_seq_ne_nil.mp some
  obtain ⟨q, hq, ho⟩ := mem_outcomes_anyOf.mp ho
  exact each q hq here (outcomes_seq_ne_nil.mpr ⟨o, ho, edge⟩)

theorem Starts.seq {ks : List String} (h : Starts p ks) (q : Pattern σ) : Starts (.seq p q) ks :=
  fun here some => h here fun none => some (outcomes_seq_eq_nil_of_left none)

theorem Starts.mono {js ks : List String} (h : Starts p js) (sub : ∀ j ∈ js, j ∈ ks) :
    Starts p ks := by
  intro here some
  obtain ⟨k, hk, rest⟩ := h here some
  exact ⟨k, sub k hk, rest⟩

/-- Keeping a part does not change what starts it. -/
theorem Starts.seq_keep {ks : List String} (slot : σ) (h : Starts (.seq p q) ks) :
    Starts (.seq (keep slot p) q) ks := by
  intro here some
  obtain ⟨o, ho, more⟩ := outcomes_seq_ne_nil.mp some
  obtain ⟨o', ho', rfl⟩ := mem_outcomes_keep.mp ho
  exact h here (outcomes_seq_ne_nil.mpr ⟨o', ho', more⟩)

theorem Starts.keep {ks : List String} (slot : σ) (h : Starts p ks) :
    Starts (.keep slot p) ks := by
  intro here some
  refine h here fun none => some ?_
  rw [outcomes, none, List.map_nil]

/-- What keywords start does not match in front of a text that lacks them. -/
theorem Starts.outcomes_eq_nil {ks : List String} (h : Starts p ks) {s r : List Char}
    (lacks : Lacks ks s) (edge : r.head?.any isWord = false) :
    p.outcomes ⟨before, position, s ++ r⟩ = [] := by
  refine Decidable.byContradiction fun some => ?_
  obtain ⟨k, hk, spelled, found⟩ := h _ some
  rw [leading_append edge] at spelled found
  exact lacks.not_spells_leading (a := []) rfl rfl found k hk spelled

/-- A clause that two words start. -/
theorem starts_whole_by {k : String} (words : AreWords [k]) :
    Starts (σ := σ) (whole (all [keyword k, someBlanks, keyword "BY"])) [k] := by
  have starts : Starts (σ := σ) (.seq (anyKeyword [k]) (.seq someBlanks (keyword "BY"))) [k] :=
    starts_anyKeyword words (needsEdge_someBlanks _)
  exact starts.seq wordEdge

/-- One of two patterns is started by the keywords of one of them. -/
theorem starts_or {js ks : List String} (hp : Starts p js) (hq : Starts q ks) :
    Starts (or p q) (js ++ ks) := by
  intro here some
  obtain ⟨o, ho⟩ := List.exists_mem_of_ne_nil _ some
  rcases mem_outcomes_or.mp ho with ho | ho
  · obtain ⟨k, hk, rest⟩ := hp here (List.ne_nil_of_mem ho)
    exact ⟨k, List.mem_append_left _ hk, rest⟩
  · obtain ⟨k, hk, rest⟩ := hq here (List.ne_nil_of_mem ho)
    exact ⟨k, List.mem_append_right _ hk, rest⟩

/-- An optional part adds the keywords that start it. -/
theorem starts_seq_option {js ks : List String} (hp : Starts p js) (hq : Starts q ks) :
    Starts (seq (option p) q) (js ++ ks) := by
  intro here some
  obtain ⟨o, ho, more⟩ := outcomes_seq_ne_nil.mp some
  rcases mem_outcomes_option.mp ho with ho | rfl
  · obtain ⟨k, hk, rest⟩ := hp here (List.ne_nil_of_mem ho)
    exact ⟨k, List.mem_append_left _ hk, rest⟩
  · obtain ⟨k, hk, rest⟩ := hq here more
    exact ⟨k, List.mem_append_right _ hk, rest⟩

/-- Blanks in front of the end of a text that is not blank belong to the text. -/
theorem exists_of_blanks {a b r s : List Char} (solid : ∃ c, b.getLast? = some c ∧ isBlank c = false)
    (blank : ∀ c ∈ a, isBlank c = true) (split : b ++ r = a ++ s) :
    ∃ t, t ≠ [] ∧ b = a ++ t ∧ s = t ++ r := by
  obtain ⟨c, last, unblank⟩ := solid
  have beyond : c ∉ a := by
    intro hc
    rw [blank c hc] at unblank
    cases unblank
  have hc : c ∈ b := List.mem_of_getLast? last
  rcases List.append_eq_append_iff.mp split with ⟨t, rfl, -⟩ | ⟨t, rfl, rfl⟩
  · exact absurd (List.mem_append_left _ hc) beyond
  · refine ⟨t, ?_, rfl, rfl⟩
    rintro rfl
    rw [List.append_nil] at hc
    exact beyond hc

/-- What keywords start does not match behind blanks inside a text that lacks them. -/
theorem Starts.outcomes_someBlanks_eq_nil {ks : List String} (starts : Starts p ks)
    {body a b r : List Char} (lacks : Lacks ks body) (split : body = a ++ b)
    (solid : ∃ c, b.getLast? = some c ∧ isBlank c = false) (edge : r.head?.any isWord = false) :
    (.seq someBlanks p : Pattern σ).outcomes ⟨before, position, b ++ r⟩ = [] := by
  refine outcomes_seq_eq_nil.mpr fun o ho => ?_
  obtain ⟨blanks, s, nonempty, split', blank, rfl⟩ := mem_outcomes_run ho
  obtain ⟨t, -, rfl, rfl⟩ := exists_of_blanks solid blank split'
  refine Decidable.byContradiction fun some => ?_
  obtain ⟨k, hk, spelled, found⟩ := starts _ some
  rw [leading_append edge] at spelled found
  rw [← List.append_assoc] at split
  refine lacks.not_spells_leading split ?_ found k hk spelled
  rw [List.getLast?_append, List.getLast?_eq_some_getLast nonempty]
  exact isWord_of_isBlank (blank _ (List.getLast_mem nonempty))

/-- What keywords start is opened by them behind the edge of a word. -/
theorem Starts.opens {ks : List String} (h : Starts p ks) : Opens (.seq wordEdge p) ks := by
  intro here some
  obtain ⟨o, ho, more⟩ := outcomes_seq_ne_nil.mp some
  obtain ⟨atEdge, rfl⟩ := mem_outcomes_wordEdge ho
  obtain ⟨k, hk, spelled, nonempty⟩ := h _ more
  refine ⟨?_, k, hk, spelled, nonempty⟩
  have inside : here.rest.head?.any isWord = true := by
    obtain ⟨before, position, rest⟩ := here
    cases rest with
    | nil => exact absurd rfl nonempty
    | cons c rest =>
      refine Decidable.byContradiction fun outside => nonempty ?_
      have outside : isWord c = false := by simpa using outside
      simp [leading, outside]
  simpa [Place.atWordEdge, inside] using atEdge

/-! ## Patterns that take a text -/

/-- A pattern that takes a text in front of `r` and keeps nothing. -/
def Consumes (p : Pattern σ) (w r : List Char) : Prop :=
  ∀ before position, ∃ behind,
    First p ⟨before, position, w ++ r⟩ ⟨behind, position + w.length, r⟩ []

section

variable {v r : List Char}

theorem consumes_keyword {k : String} (spelled : Spells k w) (r : List Char) :
    Consumes (keyword (σ := σ) k) w r := fun _ _ => ⟨_, first_keyword spelled⟩

theorem consumes_space (edge : r.head?.any isBlank = false) :
    Consumes (someBlanks (σ := σ)) [' '] r := fun _ _ => ⟨_, first_someBlanks edge⟩

theorem Consumes.seq (h : Consumes p w (v ++ r)) (k : Consumes q v r) :
    Consumes (.seq p q) (w ++ v) r := by
  intro before position
  obtain ⟨mid, first⟩ := h before position
  obtain ⟨behind, second⟩ := k mid (position + w.length)
  refine ⟨behind, ?_⟩
  rw [List.append_assoc, List.length_append, ← Nat.add_assoc]
  exact first.andThen second

theorem Consumes.option (h : Consumes p w r) : Consumes (.option p) w r := fun before position =>
  (h before position).imp fun _ first => first.option

/-- An optional part that is not there takes nothing. -/
theorem consumes_option_nil (none : ∀ before position, p.outcomes ⟨before, position, r⟩ = []) :
    Consumes (option p) [] r := fun before position =>
  ⟨before, first_option_of_nil (none before position)⟩

theorem Consumes.or_left (h : Consumes p w r) (q : Pattern σ) : Consumes (.or p q) w r :=
  fun before position => (h before position).imp fun _ first => first.or_left q

theorem Consumes.or_right (none : ∀ before position, p.outcomes ⟨before, position, w ++ r⟩ = [])
    (h : Consumes q w r) : Consumes (.or p q) w r := fun before position =>
  (h before position).imp fun _ first => .or_right (none before position) first

end

end QueryWorkbench.Pattern
