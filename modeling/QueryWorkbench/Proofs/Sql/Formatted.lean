/-
QueryWorkbench.Proofs.Sql.Formatted — formatting keeps generated statements.

A generated statement that is formatted and squeezed again is the compact text of the query, in
whichever layout it was generated: formatting changes blanks and nothing else
(`squeeze_format_generate`).

## How the proof goes

Formatting searches a text for its clauses and lays out what it finds. That nothing is lost or
doubled is known for texts of a certain shape (`Statement.Settled`, `Settled.squeeze_formatChars`),
so it has to be shown that the compact text of a level has it. Clause by clause the phrases make the
text of the same clause of `statement` (`spaced_selectFragments` and so on), which puts the whole
together (`toList_render_eq_chars`), and the parts are as neutral as a settled statement asks
(`settled_statement`, by the lemmas of `Sql/NeutralPhrases.lean`). The layout in which the text was
generated is forgotten before the first search (`formatChars_generate`).

## The side conditions

* `Flat`: the clauses of a nested query would be taken for clauses of the statement, and copied text
  may spell any clause.
* `Identified`: names have no character and are no word by which the text is cut. A table may have
  its schema in its own name, with a dot between them.
* No value in WHERE holds a text. What becomes of a text there is the matter of
  `Sql/ShownText.lean`.

`albumsByTitle` is a statement with every clause.
-/
import QueryWorkbench.Proofs.Query.JoinGroup
import QueryWorkbench.Proofs.Sql.Layout
import QueryWorkbench.Proofs.Sql.NeutralPhrases
import QueryWorkbench.Proofs.Sql.Statement

namespace QueryWorkbench.Sql

open Analysis Text

variable {d : Dialect}

/-! ## Phrases in a row -/

/-- Phrases with a space between any two, as characters. -/
abbrev rowChars (d : Dialect) (ps : List Phrase) : List Char := joined (ps.map (Phrase.chars d))

theorem spaced_eq {ts : List (List Char)} (some : ts ≠ []) : spaced ts = ' ' :: joined ts := by
  obtain ⟨t, ts, rfl⟩ := List.exists_cons_of_ne_nil some
  rw [joined_cons, spaced_cons]

theorem spaced_map_chars {ps : List Phrase} (some : ps ≠ []) :
    spaced (ps.map (Phrase.chars d)) = ' ' :: rowChars d ps :=
  spaced_eq (by simpa using some)

theorem neutral_joined {ts : List (List Char)} (some : ts ≠ []) (each : ∀ t ∈ ts, Neutral t) :
    Neutral (joined ts) := by
  induction ts with
  | nil => exact absurd rfl some
  | cons t ts ih =>
    have first := each t (List.mem_cons_self ..)
    cases ts with
    | nil =>
      rw [joined, List.intercalate_singleton]
      exact first
    | cons u ts =>
      rw [joined_cons_cons]
      exact first.space (ih (List.cons_ne_nil _ _) fun v hv => each v (List.mem_cons_of_mem _ hv))

theorem neutral_rowChars {ps : List Phrase} (some : ps ≠ []) (each : ∀ p ∈ ps, NeutralPhrase d p) :
    Neutral (rowChars d ps) :=
  neutral_joined (by simpa using some) (List.forall_mem_map.mpr each)

theorem firm_rowChars {ps : List Phrase} (some : ps ≠ []) (each : ∀ p ∈ ps, FirmPhrase d p) :
    Firm (rowChars d ps) := by
  obtain ⟨p, ps, rfl⟩ := List.exists_cons_of_ne_nil some
  rw [rowChars, List.map_cons, joined_cons]
  exact (each p (List.mem_cons_self ..)).spaced
    (List.forall_mem_map.mpr fun q hq => each q (List.mem_cons_of_mem _ hq))

/-- Atoms in a row are an item. -/
theorem isItem_rowChars {ps : List Phrase} (some : ps ≠ []) (each : ∀ p ∈ ps, AtomPhrase d p) :
    IsItem (rowChars d ps) := by
  refine ⟨neutral_rowChars some fun p hp => (each p hp).neutral, fun comma => ?_⟩
  have inside : ∀ ts : List (List Char), ',' ∈ joined ts → ∃ t ∈ ts, ',' ∈ t := by
    intro ts
    induction ts with
    | nil =>
      intro found
      cases found
    | cons t ts ih =>
      rw [joined, intercalate_cons]
      intro found
      rcases List.mem_append.mp found with found | found
      · exact ⟨t, List.mem_cons_self .., found⟩
      · obtain ⟨u, hu, found⟩ := List.mem_flatMap.mp found
        refine ⟨u, List.mem_cons_of_mem _ hu, ?_⟩
        simpa using found
  obtain ⟨t, ht, found⟩ := inside _ comma
  obtain ⟨p, hp, rfl⟩ := List.mem_map.mp ht
  exact ne_comma_of_isSolid ((each p hp).solid ',' found) rfl

/-- A comma behind the last phrase is behind the row. -/
theorem spaced_endWithComma {ps : List Phrase} (some : ps ≠ []) :
    spaced ((endWithComma ps).map (Phrase.chars d)) = ' ' :: (rowChars d ps ++ [',']) := by
  induction ps with
  | nil => exact absurd rfl some
  | cons p ps ih =>
    cases ps with
    | nil =>
      have text : Phrase.chars d (p ++ [.word ","]) = Phrase.chars d p ++ [','] := by
        have comma : (Token.text d (.word ",")).toList = [','] := String.toList_ofList
        rw [Phrase.chars, Phrase.toList_text_append, Phrase.toList_text_singleton, comma]
      rw [endWithComma, List.map_cons, List.map_nil, spaced_cons, spaced_nil, List.append_nil, text,
        rowChars, List.map_cons, List.map_nil, joined, List.intercalate_singleton]
    | cons q ps =>
      rw [endWithComma_cons_cons, List.map_cons, spaced_cons, ih (List.cons_ne_nil _ _)]
      simp only [rowChars, List.map_cons, joined_cons_cons, List.append_assoc, List.cons_append]

/-- Items with commas are a list. -/
theorem spaced_withCommas {items : List (List Phrase)} (some : items ≠ [])
    (each : ∀ item ∈ items, item ≠ []) :
    spaced ((withCommas items).flatten.map (Phrase.chars d)) =
      ' ' :: listed (items.map (rowChars d)) := by
  induction items with
  | nil => exact absurd rfl some
  | cons item items ih =>
    have first := each item (List.mem_cons_self ..)
    cases items with
    | nil =>
      rw [withCommas, List.flatten_cons, List.flatten_nil, List.append_nil, spaced_map_chars first,
        List.map_cons, List.map_nil, listed, List.intercalate_singleton]
    | cons next items =>
      rw [withCommas_cons_cons, List.flatten_cons, List.map_append, spaced_append,
        spaced_endWithComma first,
        ih (List.cons_ne_nil _ _) fun i hi => each i (List.mem_cons_of_mem _ hi)]
      simp only [List.map_cons, listed_cons_cons, List.cons_append, List.append_assoc, List.nil_append]

/-- In the compact layout fragments are phrases in a row. -/
theorem toList_render_rowChars (fs : List Fragment) :
    (render d .compact fs).toList = rowChars d (fs.map Fragment.phrase) := by
  cases fs with
  | nil => rfl
  | cons f fs =>
    rw [toList_render_compact, rowChars, List.map_cons, List.map_cons, joined_cons]

/-! ## Clauses -/

variable (d) in
/-- A group of joins as a join of a statement. -/
def joinClause (g : JoinGroup String) : Clause.JoinClause :=
  ⟨g.first.kind, rowChars d (joinTarget g.first),
    rowChars d ([[.word "AND"]].intercalate (g.members.map joinCondition))⟩

variable (d) in
/-- A level as a statement. -/
def statement (c : Clauses String) : Statement where
  items := (selectItems c.tableAliases c.fields).map (rowChars d)
  table := rowChars d (sourcePhrases c.source).tail
  joins := (JoinGroup.ofJoins c.joins).map (joinClause d)
  condition := rowChars d
    ((conditionFragments c.tableAliases (c.conditions.getD [])).map Fragment.phrase).tail
  groups := (sortedBy (·.order) (c.groupings.getD [])).map fun g =>
    rowChars d [columnRef c.tableAliases g.table g.column]
  sorts := (sortedBy (·.order) (c.sortings.getD [])).map fun s =>
    rowChars d [columnRef c.tableAliases s.table s.column, [.word s.direction.name]]
  paging := pagingOf d c.limit !(c.sortings.getD []).isEmpty

theorem chars_word (s : String) : Phrase.chars d [.word s] = s.toList := by
  rw [Phrase.chars, Phrase.toList_text_singleton]
  rfl

/-- A word and phrases behind it are a clause. -/
theorem spaced_part {c : PlainClause} {ps : List Phrase} (some : ps ≠ [])
    (each : ∀ p ∈ ps, FirmPhrase d p) :
    spaced (([.word c.keys] :: ps).map (Phrase.chars d)) = spaced (part c (rowChars d ps)) := by
  rw [part, if_neg (firm_rowChars some each).ne_nil, List.map_cons, spaced_cons,
    spaced_map_chars some, chars_word, spaced_cons, spaced_nil, List.append_nil]
  rfl

/-- A word and items with commas behind it are a clause. -/
theorem spaced_listPart {c : PlainClause} {items : List (List Phrase)} (some : items ≠ [])
    (each : ∀ item ∈ items, item ≠ [] ∧ ∀ p ∈ item, AtomPhrase d p) :
    spaced (([.word c.keys] :: (withCommas items).flatten).map (Phrase.chars d)) =
      spaced (part c (listed (items.map (rowChars d)))) := by
  have neutral : Neutral (listed (items.map (rowChars d))) :=
    neutral_listed (by simpa using some) (List.forall_mem_map.mpr fun item hi =>
      (isItem_rowChars (each item hi).1 (each item hi).2).neutral)
  rw [part, if_neg neutral.tidy.nonempty, List.map_cons, spaced_cons,
    spaced_withCommas some fun item hi => (each item hi).1, chars_word, spaced_cons, spaced_nil,
    List.append_nil]
  rfl

section

variable {c : Clauses String} (flat : Flat c) (h : Identified c)
include flat h

/-- SELECT and what it lists. -/
theorem spaced_selectFragments :
    spaced (((selectFragments c.tableAliases c.fields (statement d c).paging.top?).map
      Fragment.phrase).map (Phrase.chars d)) = ' ' :: (statement d c).selection := by
  have items := atom_selectItems (d := d) flat h
  have some : selectItems c.tableAliases c.fields ≠ [] := by
    intro none
    exact selectItems_ne_nil c.tableAliases c.fields (by rw [none]; rfl)
  have listed := spaced_withCommas (d := d) some fun item hi => (items item hi).1
  rw [selectFragments, List.map_append, map_phrase_row, map_phrase_rows, List.map_append,
    spaced_append, listed]
  show _ = ' ' :: ("SELECT".toList ++ ' ' :: Clause.listText (statement d c).paging.top? _)
  rw [Clause.listText.eq_def]
  cases (statement d c).paging.top? with
  | none =>
    rw [selectHead, List.map_cons, List.map_nil, chars_word, spaced_cons, spaced_nil, List.append_nil]
    rfl
  | some n =>
    rw [selectHead, List.map_cons, List.map_cons, List.map_cons, List.map_nil, chars_word, chars_word,
      chars_word]
    simp only [spaced_cons, spaced_nil, List.append_nil, Clause.topChars, List.append_assoc,
      List.cons_append]
    rfl

/-- FROM with its table. -/
theorem spaced_sourcePhrases : spaced ((sourcePhrases c.source).map (Phrase.chars d)) =
    spaced (part Clause.sourceClause (statement d c).table) := by
  obtain ⟨more, split, some, each⟩ := atom_sourcePhrases (d := d) flat h
  rw [statement, split]
  exact spaced_part (c := Clause.sourceClause) some fun p hp => (each p hp).neutral.firm

/-- The equalities of joins are made of neutral phrases. -/
theorem neutral_joinConditions {g : JoinGroup String} (members : ∀ j ∈ g.members, j ∈ c.joins) :
    [[.word "AND"]].intercalate (g.members.map joinCondition) ≠ [] ∧
      ∀ p ∈ [[.word "AND"]].intercalate (g.members.map joinCondition), NeutralPhrase d p := by
  have each := fun j hj => atom_joinCondition (d := d) flat h (members j hj)
  constructor
  · rw [JoinGroup.members, List.map_cons, intercalate_cons]
    exact List.append_ne_nil_of_left_ne_nil (each _ (List.mem_cons_self ..)).1 _
  · exact forall_mem_intercalate (List.forall_mem_singleton.mpr (neutral_word (by decide)))
      (List.forall_mem_map.mpr fun j hj p hp => ((each j hj).2 p hp).neutral)

/-- A group of joins. -/
theorem spaced_joinFragments {g : JoinGroup String} (members : ∀ j ∈ g.members, j ∈ c.joins) :
    spaced (((joinFragments g).map Fragment.phrase).map (Phrase.chars d)) =
      ' ' :: (joinClause d g).text := by
  have target : joinTarget g.first ≠ [] := List.cons_ne_nil _ _
  have condition := (neutral_joinConditions (d := d) flat h members).1
  rw [joinFragments, List.map_append, map_phrase_row, map_phrase_row, List.map_append, spaced_append]
  simp only [List.map_cons, spaced_cons, chars_word, spaced_map_chars target,
    spaced_map_chars condition, joinClause, Clause.JoinClause.text, List.append_assoc, List.cons_append]

/-- The joins. -/
theorem spaced_joins : spaced ((((JoinGroup.ofJoins c.joins).flatMap joinFragments).map
    Fragment.phrase).map (Phrase.chars d)) =
      spaced ((statement d c).joins.map Clause.JoinClause.text) := by
  have members : ∀ g ∈ JoinGroup.ofJoins c.joins, ∀ j ∈ g.members, j ∈ c.joins := fun g hg j hj =>
    JoinGroup.exists_mem_ofJoins.mp ⟨g, hg, hj⟩
  have each := fun g hg => spaced_joinFragments (d := d) flat h (members g hg)
  rw [statement]
  generalize JoinGroup.ofJoins c.joins = groups at each
  induction groups with
  | nil => rfl
  | cons g groups ih =>
    have first := each g (List.mem_cons_self ..)
    rw [List.flatMap_cons, List.map_append, List.map_append, spaced_append, first,
      ih fun g' hg => each g' (List.mem_cons_of_mem _ hg), List.map_cons, List.map_cons, spaced_cons,
      List.cons_append]

/-- WHERE is followed by phrases with solid ends. -/
theorem firm_conditionFragments :
    (conditionFragments c.tableAliases (c.conditions.getD [])).map Fragment.phrase = [] ∨
      ∃ more, (conditionFragments c.tableAliases (c.conditions.getD [])).map Fragment.phrase =
        [.word "WHERE"] :: more ∧ more ≠ [] ∧ ∀ p ∈ more, FirmPhrase d p :=
  (forall_conditionFragments (fun w => (neutral_connective w).firm)
    fun _ hx => firm_conditionPhrases flat h hx).phrases

/-- WHERE with its condition. -/
theorem spaced_conditionFragments :
    spaced (((conditionFragments c.tableAliases (c.conditions.getD [])).map Fragment.phrase).map
      (Phrase.chars d)) = spaced (part Clause.filterClause (statement d c).condition) := by
  rw [statement]
  rcases firm_conditionFragments (d := d) flat h with none | ⟨more, split, some, each⟩
  · rw [none]
    rfl
  · rw [split]
    exact spaced_part (c := Clause.filterClause) some each

omit flat in
/-- What is grouped by is a column. -/
theorem atom_groupings : ∀ item ∈ (sortedBy (·.order) (c.groupings.getD [])).map fun g =>
    [columnRef c.tableAliases g.table g.column], item ≠ [] ∧ ∀ p ∈ item, AtomPhrase d p := by
  exact forall_groupingItems fun g hg => atom_column h (h.groupings g hg).1 (h.groupings g hg).2

omit flat in
/-- GROUP BY with its items. -/
theorem spaced_groupingFragments :
    spaced (((groupingFragments c.tableAliases (c.groupings.getD [])).map Fragment.phrase).map
      (Phrase.chars d)) = spaced (part Clause.groupClause (listed (statement d c).groups)) := by
  have each := atom_groupings (d := d) h
  rw [groupingFragments, statement]
  generalize sortedBy (·.order) (c.groupings.getD []) = sorted at each
  split
  · rfl
  · rename_i some
    rw [map_phrase_row]
    exact (spaced_listPart (c := Clause.groupClause) (by simpa using some) each).trans
      (by rw [List.map_map]; rfl)

omit flat in
/-- What is sorted by is a column with a direction. -/
theorem atom_sortings : ∀ item ∈ (sortedBy (·.order) (c.sortings.getD [])).map fun s =>
    [columnRef c.tableAliases s.table s.column, [.word s.direction.name]],
    item ≠ [] ∧ ∀ p ∈ item, AtomPhrase d p := by
  refine forall_sortingItems (fun s hs => atom_column h (h.sortings s hs).1 (h.sortings s hs).2)
    fun w => atom_word ?_
  cases w <;> decide

omit flat in
/-- ORDER BY with its items. -/
theorem spaced_sortingFragments :
    spaced (((sortingFragments c.tableAliases (c.sortings.getD [])).map Fragment.phrase).map
      (Phrase.chars d)) = spaced (part Clause.orderClause (listed (statement d c).sorts)) := by
  have each := atom_sortings (d := d) h
  rw [sortingFragments, statement]
  generalize sortedBy (·.order) (c.sortings.getD []) = sorted at each
  split
  · rfl
  · rename_i some
    rw [map_phrase_row]
    exact (spaced_listPart (c := Clause.orderClause) (by simpa using some) each).trans
      (by rw [List.map_map]; rfl)

end

/-- The paging. -/
theorem spaced_pagingFragments (s : Statement) :
    spaced (((pagingFragments s.paging).map Fragment.phrase).map (Phrase.chars d)) =
      spaced s.ending := by
  have fetch : "FETCH NEXT".toList = "FETCH".toList ++ ' ' :: "NEXT".toList := by decide
  have only : "ROWS ONLY".toList = "ROWS".toList ++ ' ' :: "ONLY".toList := by decide
  rw [Statement.ending]
  cases s.paging with
  | none => rfl
  | top n => rfl
  | limit count skipped =>
    cases skipped with
    | none =>
      rw [Clause.pagingChars_limit, if_neg (by simp), pagingFragments, map_phrase_row]
      simp only [List.map_cons, List.map_nil, chars_word, spaced_cons, spaced_nil, List.append_nil]
    | some n =>
      rw [Clause.pagingChars_limit_offset, if_neg (by simp), pagingFragments, map_phrase_row]
      simp only [List.map_cons, List.map_nil, chars_word, spaced_cons, spaced_nil, List.append_nil]
  | offsetFetch n count =>
    rw [Clause.pagingChars_offsetFetch, if_neg (by simp), pagingFragments, map_phrase_row]
    simp only [List.map_cons, List.map_nil, chars_word, spaced_cons, spaced_nil,
      List.append_nil, fetch, only, List.append_assoc, List.cons_append]

/-- Rows are skipped with OFFSET only where they are sorted. -/
theorem pagingOf_ne_offsetFetch (limit : Option Limit) (n count : Nat) :
    pagingOf d limit false ≠ .offsetFetch n count := by
  rw [pagingOf.eq_def]
  split
  · nofun
  · dsimp only
    split <;> nofun

/-! ## Levels -/

section

variable {c : Clauses String} (flat : Flat c) (h : Identified c)
include flat h

/-- A generated level is the text of a statement. -/
theorem toList_render_eq_chars :
    (render d .compact (fragments d c)).toList = (statement d c).chars := by
  have some : (fragments d c).map Fragment.phrase ≠ [] := by
    simpa using fragments_ne_nil d c
  have clauses : spaced (((fragments d c).map Fragment.phrase).map (Phrase.chars d)) =
      ' ' :: (statement d c).chars := by
    rw [fragments_eq flat, tailFragments]
    simp only [List.map_append, spaced_append]
    rw [show (pagingOf d c.limit !(c.sortings.getD []).isEmpty) = (statement d c).paging from rfl,
      spaced_selectFragments flat h, map_phrase_row, spaced_sourcePhrases flat h, spaced_joins flat h,
      spaced_conditionFragments flat h, spaced_groupingFragments h, spaced_sortingFragments h,
      spaced_pagingFragments]
    simp only [Statement.chars, Statement.sourcing, Statement.filtering, Statement.grouping,
      Statement.sorting, spaced_append, List.cons_append]
  rw [spaced_map_chars some] at clauses
  rw [toList_render_rowChars]
  exact (List.cons.inj clauses).2

/-- The statement of a level without texts in its conditions is settled. -/
theorem settled_statement (values : ∀ x ∈ c.conditions.getD [], textless x.value = true) :
    (statement d c).Settled := by
  have selected := atom_selectItems (d := d) flat h
  have grouped := atom_groupings (d := d) h
  have sorted := atom_sortings (d := d) h
  have item {items : List (List Phrase)} (each : ∀ item ∈ items, item ≠ [] ∧ ∀ p ∈ item, AtomPhrase d p) :
      ∀ t ∈ items.map (rowChars d), IsItem t :=
    List.forall_mem_map.mpr fun i hi => isItem_rowChars (each i hi).1 (each i hi).2
  have groups := item grouped
  have sorts := item sorted
  rw [List.map_map] at groups sorts
  refine ⟨?_, item selected, ?_, ?_, ?_, groups, sorts, ?_⟩
  · intro none
    exact selectItems_ne_nil c.tableAliases c.fields (by rw [List.map_eq_nil_iff.mp none]; rfl)
  · obtain ⟨more, split, some, each⟩ := atom_sourcePhrases (d := d) flat h
    rw [statement, split]
    exact neutral_rowChars some fun p hp => (each p hp).neutral
  · intro j hj
    obtain ⟨g, hg, rfl⟩ := List.mem_map.mp hj
    have members : ∀ j ∈ g.members, j ∈ c.joins := fun j hj =>
      JoinGroup.exists_mem_ofJoins.mp ⟨g, hg, hj⟩
    have target := atom_joinTarget (d := d) flat h (members _ (List.mem_cons_self ..))
    obtain ⟨some, conditions⟩ := neutral_joinConditions (d := d) flat h members
    exact ⟨neutral_rowChars (List.cons_ne_nil _ _) fun p hp => (target p hp).neutral,
      neutral_rowChars some conditions⟩
  · intro some
    rw [statement] at some ⊢
    have neutral := forall_conditionFragments (P := NeutralPhrase d) neutral_connective
      fun x hx => neutral_conditionPhrases flat h hx (values x hx)
    rcases neutral.phrases with none | ⟨more, split, more_ne, each⟩
    · rw [none] at some
      exact absurd rfl some
    · rw [split]
      exact neutral_rowChars more_ne each
  · intro n count paged none
    have unsorted : c.sortings.getD [] = [] := sortedBy_eq_nil (List.map_eq_nil_iff.mp none)
    rw [statement, unsorted] at paged
    exact pagingOf_ne_offsetFetch c.limit n count paged

end

/-- The layout that a statement was generated in is forgotten. -/
theorem formatChars_generate (layout : Layout) {q : Query} (firm : Firm (generate d .compact q).toList) :
    formatChars (generate d layout q).toList = formatChars (generate d .compact q).toList :=
  formatChars_congr (squeeze_render layout _) firm.tidy_squeeze

/-- Laid out and squeezed, a generated statement is what it is on one line, in both dialects and
both layouts. -/
theorem squeeze_format_generate (d : Dialect) (layout : Layout) {q : Query}
    (flat : Flat q.clauses) (identified : Identified q.clauses)
    (values : ∀ x ∈ q.clauses.conditions.getD [], textless x.value = true) :
    squeeze (format (generate d layout q)).toList = (generate d .compact q).toList := by
  have values : ∀ x ∈ (q.clauses.map (compactText d)).conditions.getD [], textless x.value = true := by
    rw [Clauses.getD_conditions_map]
    exact List.forall_mem_map.mpr values
  have settled := settled_statement (d := d) (flat.map _) (identified.map _) values
  have compact : (generate d .compact q).toList = (statement d (q.clauses.map (compactText d))).chars :=
    toList_render_eq_chars (flat.map _) (identified.map _)
  rw [format, String.toList_ofList, formatChars_generate layout (compact ▸ settled.normalised.firm),
    compact, settled.squeeze_formatChars]

/-! ### A statement with every clause -/

/-- Albums of the nineties by title with their numbers of tracks, the second page. -/
def albumsByTitle : Query :=
  .mk {
    source := { table := "music.tracks", aliasName := "t" }
    fields := [
      { table := "albums", column := "title", aliasName := some "album" },
      { table := "music.tracks", column := "*", aggregate := some .count, order := 1 }]
    joins := [{
      id := "j1", sourceTable := "music.tracks", sourceAlias := "t", sourceColumn := "album_id",
      targetTable := "albums", targetAlias := "a", targetColumn := "id" }]
    conditions := some [{
      id := "c1", table := "albums", column := "year", operator := .between,
      value := .arr [.int 1990, .int 1999] }]
    groupings := some [{ table := "albums", column := "title" }]
    sortings := some [{ table := "albums", column := "title" }]
    limit := some { count := 10, offset := some 10 } }

theorem flat_albumsByTitle : Flat albumsByTitle.clauses := by
  refine ⟨rfl, rfl, rfl, ?_, ?_, ?_⟩
  · exact List.forall_mem_cons.mpr ⟨⟨rfl, rfl⟩, List.forall_mem_singleton.mpr ⟨rfl, rfl⟩⟩
  · exact List.forall_mem_singleton.mpr ⟨rfl, rfl⟩
  · exact List.forall_mem_singleton.mpr ⟨rfl, nofun, nofun⟩

theorem identified_albumsByTitle : Identified albumsByTitle.clauses := by
  have names : ∀ s ∈ ["music", "tracks", "t", "albums", "a", "title", "album", "album_id", "id", "year"],
      IsIdentifier s := by decide +kernel
  have tracks : IsTableRef "music.tracks" :=
    Or.inr ⟨"music", "tracks", names _ (by decide), names _ (by decide), by decide⟩
  have albums : IsTableRef "albums" := Or.inl (names _ (by decide))
  have title : IsColumnRef "title" := Or.inr (names _ (by decide))
  have year : IsColumnRef "year" := Or.inr (names _ (by decide))
  refine ⟨⟨tracks, names _ (by decide)⟩, rfl, ?_, ?_, ?_, ?_, ?_⟩
  · refine List.forall_mem_cons.mpr ⟨⟨albums, title, fun a same => ?_⟩,
      List.forall_mem_singleton.mpr ⟨tracks, Or.inl rfl, nofun⟩⟩
    obtain rfl : "album" = a := Option.some.inj same
    exact names _ (by decide)
  · exact List.forall_mem_singleton.mpr ⟨names _ (by decide), names _ (by decide), albums,
      names _ (by decide), names _ (by decide)⟩
  · exact List.forall_mem_singleton.mpr ⟨albums, year⟩
  · exact List.forall_mem_singleton.mpr ⟨albums, title⟩
  · exact List.forall_mem_singleton.mpr ⟨albums, title⟩

/-- A statement with a clause of every kind, laid out and squeezed. -/
theorem squeeze_format_generate_albumsByTitle :
    (Flat albumsByTitle.clauses ∧ Identified albumsByTitle.clauses ∧
      ∀ x ∈ albumsByTitle.clauses.conditions.getD [], textless x.value = true) ∧
    squeeze (format (generate .sqlServer .pretty albumsByTitle)).toList =
      (generate .sqlServer .compact albumsByTitle).toList := by
  have values : ∀ x ∈ albumsByTitle.clauses.conditions.getD [], textless x.value = true :=
    List.forall_mem_singleton.mpr rfl
  exact ⟨⟨flat_albumsByTitle, identified_albumsByTitle, values⟩,
    squeeze_format_generate .sqlServer .pretty flat_albumsByTitle identified_albumsByTitle values⟩

end QueryWorkbench.Sql
