/-
QueryWorkbench.Proofs.Sql.SelectShape — the scrubbed text of generated queries.

Scrubbing a generated query of one level gives, in both dialects and both layouts, the same text: a
SELECT with a FROM, joins with their conditions, and clauses that bring in no tables
(`exists_selectText`). Tables, aliases and conditions are those of the clauses, word for word.
-/
import QueryWorkbench.Proofs.Analysis.SelectText
import QueryWorkbench.Proofs.Query.JoinGroup
import QueryWorkbench.Proofs.Sql.Harmless

namespace QueryWorkbench.Sql

open Analysis Text

variable {d : Dialect}

/-! ## Tables -/

/-- A table under an alias, its schema apart. -/
def entrant (table aliasName : String) : Entrant :=
  match splitFirstDot? table.toList with
  | some (schema, name) => ⟨some (String.ofList schema), String.ofList name, aliasName⟩
  | none => ⟨none, table, aliasName⟩

theorem not_mem_dot_of_isWord {s : String} (word : ∀ c ∈ s.toList, isWord c = true) :
    '.' ∉ s.toList := fun dot => absurd (word '.' dot) (by decide)

/-- What a table is made of under an alias, and how it is written. -/
theorem entrant_of_isTable {t a : String} (h : IsTable t) (ha : IsName a) :
    (entrant t a).Named ∧ fullName (entrant t a).schema (entrant t a).table = t ∧
      (entrant t a).table = bareName t ∧ (entrant t a).aliasName = a ∧
      ∀ schema, given schema = none → Dialect.nameParts t schema =
        (entrant t a).schema.toList ++ [(entrant t a).table] := by
  rcases h with name | ⟨schema, name, hs, hn, rfl⟩
  · have dotless := not_mem_dot_of_isWord name.isWord
    have alone : entrant t a = ⟨none, t, a⟩ := by rw [entrant, splitFirstDot?_eq_none dotless]
    have bare : bareName t = t := by
      rw [bareName, afterLastDot_eq_self dotless, String.ofList_toList]
    rw [alone, bare]
    exact ⟨⟨by simp, name, ha⟩, rfl, rfl, rfl, fun schema none =>
      Dialect.nameParts_dotless none dotless⟩
  · have dotless := not_mem_dot_of_isWord hs.isWord
    have split : (schema ++ "." ++ name).toList = schema.toList ++ '.' :: name.toList := by simp
    have apart : entrant (schema ++ "." ++ name) a = ⟨some schema, name, a⟩ := by
      rw [entrant, split, splitFirstDot?_append dotless]
      simp only [String.ofList_toList]
    have bare : bareName (schema ++ "." ++ name) = name := by
      rw [bareName, split, afterLastDot_append (not_mem_dot_of_isWord hn.isWord),
        String.ofList_toList]
    rw [apart, bare]
    refine ⟨⟨?_, hn, ha⟩, rfl, rfl, rfl, fun own none => Dialect.nameParts_dotted none dotless name⟩
    rintro s ⟨⟩
    exact hs

/-- A table is written as it is named, part by part in quotes. -/
theorem bares_tablePhrase {t a : String} (h : IsTable t) (ha : IsName a) {schema : Option String}
    (none : given schema = none) :
    Bares (Phrase.text d (tablePhrase t schema)).toList t.toList := by
  obtain ⟨named, full, -, -, parts⟩ := entrant_of_isTable h ha
  rw [tablePhrase, parts schema none]
  generalize entrant t a = e at named full
  subst full
  cases own : e.schema with
  | none =>
    simp only [Option.toList_none, List.nil_append, List.map_cons, List.map_nil,
      List.intercalate_singleton]
    rw [Phrase.toList_text_singleton]
    exact bares_name named.table
  | some s =>
    have text : (Phrase.text d [.name s, .word ".", .name e.table]).toList =
        (d.quote s).toList ++ (".".toList ++ (d.quote e.table).toList) := by
      rw [Phrase.toList_text_cons, Phrase.toList_text_cons, Phrase.toList_text_singleton]
      rfl
    have dotted : Bares (".".toList ++ (d.quote e.table).toList) (".".toList ++ e.table.toList) :=
      (bares_name named.table).plain_append (by decide)
    simp only [Option.toList_some, List.cons_append, List.nil_append, List.map_cons, List.map_nil,
      List.intercalate_cons_cons, List.intercalate_singleton]
    rw [text, fullName, String.toList_append, String.toList_append, List.append_assoc]
    exact (bares_name (named.schema s own)).append dotted (by simp) (by simp)

/-! ## FROM and joins -/

/-- A keyword behind something. -/
theorem bared_word {s : String} {ps : List Phrase} {t : List Char}
    (plain : ∀ c ∈ s.toList, isPlain c = true) (tidy : Tidy s.toList) (h : Bared d ps t) :
    Bared d ([.word s] :: ps) (' ' :: (s.toList ++ t)) := by
  refine .cons ?_ tidy h
  rw [Phrase.toList_text_singleton]
  exact bares_of_plain plain

/-- A table with its alias behind something. -/
theorem bared_table {t a : String} (h : IsTable t) (ha : IsName a) {schema : Option String}
    (none : given schema = none) :
    Bared d (underAlias (tablePhrase t schema) (.declared a)) (' ' :: (entrant t a).text) := by
  obtain ⟨-, full, -, named, -⟩ := entrant_of_isTable h ha
  have quiet := quiet_of_isName ha
  have declared : Bared d [[.declared a]] (' ' :: a.toList) := by
    refine .singleton ?_ quiet.tidy
    rw [Phrase.toList_text_singleton]
    exact bares_of_plain quiet.plain
  have text : (entrant t a).text = t.toList ++ ' ' :: ("AS".toList ++ ' ' :: a.toList) := by
    rw [Entrant.text, tableText, full, named]
  rw [text]
  exact .cons (bares_tablePhrase h ha none) (quiet_of_isTable h).tidy
    (bared_word (by decide) (by decide) declared)

/-- The equality of a join. -/
def equation {Q : Type} (j : Join Q) : Equation :=
  ⟨none, j.sourceAlias, j.sourceColumn, none, j.targetAlias, j.targetColumn⟩

/-- A group of joins as it is written. -/
def joinText {Q : Type} (g : JoinGroup Q) : JoinText :=
  ⟨g.first.kind, entrant g.first.targetTable g.first.targetAlias, equation g.first,
    g.others.map equation⟩

/-- The words that SELECT starts with, apart from the keyword, are harmless. -/
theorem exists_selectHead (top : Option Nat) : ∃ more, selectHead top = [.word "SELECT"] :: more ∧
    ∀ p ∈ more, HarmlessPhrase d p := by
  cases top with
  | none => exact ⟨[], rfl, fun p hp => absurd hp List.not_mem_nil⟩
  | some n =>
    refine ⟨[[.word "TOP"], [.word (toString n)]], rfl, fun p hp => ?_⟩
    simp only [List.mem_cons, List.not_mem_nil, or_false] at hp
    rcases hp with rfl | rfl
    · exact harmless_word (by decide)
    · exact harmless_number n

section

variable {c : Clauses String} (flat : Flat c) (named : Named c)
include flat named

/-- FROM with its table. -/
theorem bared_sourcePhrases :
    Bared d (sourcePhrases c.source)
      (' ' :: ("FROM".toList ++ ' ' :: (entrant c.source.table c.source.aliasName).text)) := by
  have aliased : c.source.aliasName ≠ "" := named.source.2.ne_empty
  have table : Bared d (underAlias (tablePhrase c.source.table c.source.schema)
      (.declared c.source.aliasName)) _ :=
    bared_table named.source.1 named.source.2 named.schema
  simp only [sourcePhrases, flat.source, if_neg aliased]
  exact bared_word (by decide) (by decide) table

/-- The equality of a join behind something. -/
theorem bared_equality {j : Join String} (hj : j ∈ c.joins) :
    Bared d (joinCondition j) (' ' :: (equation j).text) := by
  obtain ⟨-, sourceAlias, sourceColumn, -, targetAlias, targetColumn⟩ := named.joins j hj
  have left := (quiet_of_isName sourceAlias).dot (quiet_of_isName sourceColumn)
  have right := (quiet_of_isName targetAlias).dot (quiet_of_isName targetColumn)
  have compared : Bared d [[.owner j.targetAlias, .name j.targetColumn]]
      (' ' :: (j.targetAlias.toList ++ '.' :: j.targetColumn.toList)) :=
    .singleton (bares_owned (quiet_of_isName targetAlias) targetColumn) right.tidy
  have text : (equation j).text = (j.sourceAlias.toList ++ '.' :: j.sourceColumn.toList) ++
      ' ' :: ("=".toList ++ ' ' :: (j.targetAlias.toList ++ '.' :: j.targetColumn.toList)) := by
    simp [equation, Equation.text]
  rw [joinCondition, (flat.joins j hj).2, text]
  exact .cons (bares_owned (quiet_of_isName sourceAlias) sourceColumn) left.tidy
    (bared_word (by decide) (by decide) compared)

/-- A group of joins, as it is written behind something. -/
theorem bared_joinFragments {g : JoinGroup String} (members : ∀ j ∈ g.members, j ∈ c.joins) :
    Bared d ((joinFragments g).map Fragment.phrase) (joinText g).text := by
  have first : g.first ∈ c.joins := members _ (List.mem_cons_self ..)
  have others : ∀ j ∈ g.others, j ∈ c.joins := fun j hj => members j (List.mem_cons_of_mem _ hj)
  have target : Bared d (joinTarget g.first)
      (' ' :: (entrant g.first.targetTable g.first.targetAlias).text) := by
    obtain ⟨-, -, -, table, aliasName, -⟩ := named.joins g.first first
    simp only [joinTarget, targetAlias, (flat.joins g.first first).1]
    exact bared_table table aliasName rfl
  have more : Bared d (g.others.flatMap fun j => [.word "AND"] :: joinCondition j)
      (g.others.flatMap fun j => ' ' :: ("AND".toList ++ ' ' :: (equation j).text)) :=
    .flatMap fun j hj =>
      bared_word (by decide) (by decide) (bared_equality flat named (others j hj))
  have condition : Bared d ([[.word "AND"]].intercalate (g.members.map joinCondition))
      (' ' :: (joinText g).condition) := by
    have both := (bared_equality (d := d) flat named first).append more
    rw [JoinGroup.members, List.map_cons, intercalate_cons, List.flatMap_map, JoinText.condition,
      conditionText, joinText, List.flatMap_map]
    exact both
  have head : Bared d ([.word g.first.kind.name] :: [.word "JOIN"] :: joinTarget g.first)
      (' ' :: (joinText g).head) := by
    have plain : (∀ c ∈ g.first.kind.name.toList, isPlain c = true) ∧
        Tidy g.first.kind.name.toList := by cases g.first.kind <;> decide
    exact bared_word plain.1 plain.2 (bared_word (by decide) (by decide) target)
  have whole := head.append (bared_word (s := "ON") (by decide) (by decide) condition)
  rw [joinFragments, List.map_append, map_phrase_row, map_phrase_row, JoinText.text]
  exact whole

/-- SELECT and what it lists. -/
theorem exists_selectFragments (top : Option Nat) :
    ∃ f fs selected, selectFragments c.tableAliases c.fields top = f :: fs ∧
      f.phrase = [.word "SELECT"] ∧ Bared d (fs.map Fragment.phrase) (' ' :: selected) ∧
      Balanced selected ∧ Lacks openers selected := by
  obtain ⟨more, head, words⟩ := exists_selectHead (d := d) top
  have listed := forall_withCommas (harmless_comma (d := d)) fun item hitem =>
    (harmless_selectItems flat named item hitem).2
  have some := selectItems_ne_nil c.tableAliases c.fields
  generalize listing : selectItems c.tableAliases c.fields = items at listed some
  have all : ∀ p ∈ more ++ (withCommas items).flatten, HarmlessPhrase d p := fun p hp =>
    (List.mem_append.mp hp).elim (words p) (listed p)
  obtain ⟨p, ps, split⟩ := List.exists_cons_of_ne_nil (List.append_ne_nil_of_right_ne_nil more some)
  rw [split] at all
  obtain ⟨s, bared, balanced, lacks⟩ := exists_bared all
  rw [← split] at bared
  refine ⟨⟨.line, [.word "SELECT"]⟩, more.map (⟨.space, ·⟩) ++ (withCommas items).flatMap
    (row (if items.length > 1 then .indented else .space)), s, ?_, rfl, ?_, balanced, lacks⟩
  · rw [selectFragments, listing, head, row, List.cons_append]
  · rw [List.map_append, map_phrase_rows, List.map_map]
    show Bared d (more.map id ++ _) _
    rw [List.map_id]
    exact bared

/-- The clauses behind the joins. -/
theorem exists_tail : ∃ s, Bared d ((tailFragments d c).map Fragment.phrase) s ∧
    Lacks openers s ∧ StartsClause s := by
  rcases isClause_tail (d := d) flat named with none | ⟨k, hk, p, more, split, all⟩
  · rw [none]
    exact ⟨[], .nil, lacks_nil, Or.inl rfl⟩
  · obtain ⟨s, bared, -, lacks⟩ := exists_bared all
    have quiet := quiet_clauseWord hk
    rw [split]
    refine ⟨' ' :: (k.toList ++ ' ' :: s), bared_word quiet.plain quiet.tidy bared, ?_,
      Or.inr ⟨k, hk, s, rfl⟩⟩
    exact lacks_space.mpr (lacks_append_space.mpr ⟨quiet.lacks, lacks⟩)

omit flat in
theorem named_joinText {g : JoinGroup String} (members : ∀ j ∈ g.members, j ∈ c.joins) :
    (joinText g).Named := by
  obtain ⟨-, -, -, table, aliasName, -⟩ := named.joins g.first (members _ (List.mem_cons_self ..))
  refine ⟨(entrant_of_isTable table aliasName).1, fun e he => ?_⟩
  obtain ⟨j, hj, rfl⟩ : ∃ j ∈ g.members, equation j = e := List.mem_map.mp he
  obtain ⟨-, sourceAlias, sourceColumn, -, targetAlias, targetColumn⟩ :=
    named.joins j (members j hj)
  exact ⟨rfl, sourceAlias, sourceColumn, rfl, targetAlias, targetColumn⟩

omit named in
theorem fragments_eq : fragments d c =
    selectFragments c.tableAliases c.fields
      (pagingOf d c.limit !(c.sortings.getD []).isEmpty).top? ++
      (row .line (sourcePhrases c.source) ++
        ((JoinGroup.ofJoins c.joins).flatMap joinFragments ++ tailFragments d c)) := by
  have ctes : cteFragments d c.ctes = [] := by
    rw [flat.ctes]
    rfl
  have unions : unionFragments c.unions = [] := by
    rw [flat.unions, unionFragments, sortedBy, List.mergeSort_nil, List.flatMap_nil]
  simp only [fragments, ctes, unions, tailFragments, List.nil_append, List.append_nil,
    List.append_assoc]

/-- A generated level without nested queries is one SELECT, in both layouts. -/
theorem exists_selectText :
    ∃ t : SelectText, t.WellFormed ∧ t.source = entrant c.source.table c.source.aliasName ∧
      t.joins = (JoinGroup.ofJoins c.joins).map joinText ∧
      ∀ layout, scrubChars (render d layout (fragments d c)).toList = t.chars := by
  have members : ∀ g ∈ JoinGroup.ofJoins c.joins, ∀ j ∈ g.members, j ∈ c.joins := fun g hg j hj =>
    JoinGroup.exists_mem_ofJoins.mp ⟨g, hg, hj⟩
  obtain ⟨f, fs, selected, select, keyword, front, balanced, lacks⟩ :=
    exists_selectFragments (d := d) flat named
      (pagingOf d c.limit !(c.sortings.getD []).isEmpty).top?
  obtain ⟨tail, behind, tailLacks, clause⟩ := exists_tail (d := d) flat named
  have source := (entrant_of_isTable named.source.1 named.source.2).1
  have each : ∀ j ∈ (JoinGroup.ofJoins c.joins).map joinText, j.Named := by
    intro j hj
    obtain ⟨g, hg, rfl⟩ := List.mem_map.mp hj
    exact named_joinText named (members g hg)
  refine ⟨⟨selected, entrant c.source.table c.source.aliasName, _, tail⟩,
    ⟨balanced, lacks, source, each, tailLacks, clause⟩, rfl, rfl, fun layout => ?_⟩
  have joins : Bared d (((JoinGroup.ofJoins c.joins).flatMap joinFragments).map Fragment.phrase)
      (((JoinGroup.ofJoins c.joins).map joinText).flatMap JoinText.text) := by
    rw [List.map_flatMap, List.flatMap_map]
    exact .flatMap fun g hg => bared_joinFragments flat named (members g hg)
  have origin := bared_sourcePhrases (d := d) flat named
  rw [← map_phrase_row .line (sourcePhrases c.source)] at origin
  have bare : Bares (f.phrase.text d).toList "SELECT".toList := by
    rw [keyword, Phrase.toList_text_singleton]
    exact bares_of_plain (s := "SELECT".toList) (by decide)
  have whole := front.append (origin.append (joins.append behind))
  simp only [← List.map_append] at whole
  rw [fragments_eq flat, select, List.cons_append, scrubChars_render layout bare (by decide) whole]
  exact (List.append_assoc "SELECT".toList (' ' :: selected) _).symm

end

end QueryWorkbench.Sql
