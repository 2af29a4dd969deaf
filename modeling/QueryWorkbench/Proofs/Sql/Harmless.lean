/-
QueryWorkbench.Proofs.Sql.Harmless — clauses that bring in no tables.

Apart from FROM and the joins, the clauses of a level without nested queries and copied text are
made of harmless phrases: columns under aliases, names, keywords, numbers and literals. The clauses
behind the joins start with a word that ends a join condition (`isClause_tail`).
-/
import QueryWorkbench.Proofs.Analysis.ConditionMatch
import QueryWorkbench.Proofs.Query.TableAlias
import QueryWorkbench.Proofs.Sql.Literal
import QueryWorkbench.Proofs.Sql.Phrases

namespace QueryWorkbench.Sql

open Analysis Text

/-! ## Names -/

theorem quiet_of_all {s : List Char} (nonempty : s ≠ []) (word : ∀ c ∈ s, isWord c = true)
    (lacks : Lacks openers s) : Quiet s := by
  refine ⟨fun c hc => isPlain_of_isWord (word c hc),
    tidy_of_all nonempty fun c hc => not_isBlank_of_isWord (word c hc), fun c hc => ?_, lacks⟩
  have inside := word c hc
  constructor <;> rintro rfl <;> exact absurd inside (by decide)

theorem quiet_of_isName {s : String} (h : IsName s) : Quiet s.toList :=
  quiet_of_all h.toList_ne_nil h.isWord (h.lacks (by decide))

/-- A table: a name, or two names with a dot between them. -/
def IsTable (t : String) : Prop :=
  IsName t ∨ ∃ schema name, IsName schema ∧ IsName name ∧ t = schema ++ "." ++ name

/-- A column: a name, or the star that stands for all columns. -/
def IsColumn (c : String) : Prop := c = "*" ∨ IsName c

/-- Quiet texts with a dot between them. -/
theorem Quiet.dot {s t : List Char} (hs : Quiet s) (ht : Quiet t) : Quiet (s ++ '.' :: t) := by
  have dotted : Tidy (s ++ ['.']) := hs.tidy.append (by decide)
  have tidy : Tidy ((s ++ ['.']) ++ t) := dotted.append ht.tidy
  rw [List.append_assoc] at tidy
  refine ⟨fun c hc => ?_, tidy, fun c hc => ?_, (lacks_append_cons (by decide)).mpr
    ⟨hs.lacks, ht.lacks⟩⟩
  · rcases List.mem_append.mp hc with hc | hc
    · exact hs.plain c hc
    · rcases List.mem_cons.mp hc with rfl | hc
      · decide
      · exact ht.plain c hc
  · rcases List.mem_append.mp hc with hc | hc
    · exact hs.calm c hc
    · rcases List.mem_cons.mp hc with rfl | hc
      · decide
      · exact ht.calm c hc

theorem quiet_of_isTable {t : String} (h : IsTable t) : Quiet t.toList := by
  rcases h with name | ⟨schema, name, hs, hn, rfl⟩
  · exact quiet_of_isName name
  · rw [String.toList_append, String.toList_append, List.append_assoc]
    exact (quiet_of_isName hs).dot (quiet_of_isName hn)

/-! ## Phrases -/

/-- A phrase whose text is harmless. -/
abbrev HarmlessPhrase (d : Dialect) (p : Phrase) : Prop := Harmless (p.text d).toList

variable {d : Dialect}

theorem harmless_word {s : String} (h : Quiet s.toList) : HarmlessPhrase d [.word s] := by
  rw [HarmlessPhrase, Phrase.toList_text_singleton]
  exact h.harmless

/-- A name is taken out of its quotes. -/
theorem bares_name {s : String} (h : IsName s) : Bares (d.quote s).toList s.toList := by
  have bares : Bares (d.quoteChars s.toList ++ []) (s.toList ++ []) :=
    .name h.toList_ne_nil h.isWord .nil
  rwa [List.append_nil, List.append_nil, ← String.toList_ofList (l := d.quoteChars s.toList)] at bares

theorem harmless_name {s : String} (h : IsName s) : HarmlessPhrase d [.name s] := by
  have quiet := quiet_of_isName h
  rw [HarmlessPhrase, Phrase.toList_text_singleton]
  exact ⟨s.toList, bares_name h, quiet.tidy, balanced_of_calm quiet.calm, quiet.lacks⟩

/-- What scrubbing leaves of a column under an alias. -/
theorem bares_owned {a c : String} (ha : Quiet a.toList) (hc : IsName c) :
    Bares (Phrase.text d [.owner a, .name c]).toList (a.toList ++ '.' :: c.toList) := by
  have text : (Phrase.text d [.owner a, .name c]).toList = a.toList ++ (".".toList ++
      (d.quote c).toList) := by
    rw [Phrase.toList_text_cons, Phrase.toList_text_singleton]
    show (a ++ ".").toList ++ _ = _
    rw [String.toList_append, List.append_assoc]
    rfl
  rw [text]
  exact ((bares_name hc).plain_append (w := ".".toList) (by decide)).plain_append ha.plain

theorem harmless_columnRef {aliases : List (String × String)} {table column : String}
    (owner : Quiet (aliasOr aliases table).toList) (hc : IsColumn column) :
    HarmlessPhrase d (columnRef aliases table column) := by
  have given : aliasOr aliases table ≠ "" := by
    intro empty
    rw [empty] at owner
    exact owner.tidy.nonempty rfl
  rw [columnRef, if_neg given]
  by_cases star : column = "*"
  · have quiet : Quiet ((aliasOr aliases table).toList ++ '.' :: "*".toList) :=
      owner.dot (by decide)
    rw [if_pos star, HarmlessPhrase, Phrase.toList_text_cons, Phrase.toList_text_singleton]
    show Harmless ((aliasOr aliases table ++ ".").toList ++ "*".toList)
    rw [String.toList_append, List.append_assoc]
    exact quiet.harmless
  · have name : IsName column := hc.resolve_left star
    have quiet := owner.dot (quiet_of_isName name)
    rw [if_neg star]
    exact ⟨_, bares_owned owner name, quiet.tidy, balanced_of_calm quiet.calm, quiet.lacks⟩

/-- A comma does no harm. -/
theorem harmless_comma (p : Phrase) (h : HarmlessPhrase d p) : HarmlessPhrase d (p ++ [.word ","]) := by
  rw [HarmlessPhrase, Phrase.toList_text_append, Phrase.toList_text_singleton]
  exact Harmless.endWithComma h

/-! ## Levels -/

/-- A level without nested queries, without copied text and without EXISTS. -/
structure Flat {Q : Type} (c : Clauses Q) : Prop where
  ctes : c.ctes = []
  unions : c.unions = []
  source : c.source.subquery = none
  fields : ∀ x ∈ c.fields, x.subquery = none ∧ given x.expression = none
  joins : ∀ j ∈ c.joins, j.subquery = none ∧ given j.condition = none
  conditions : ∀ x ∈ c.conditions.getD [],
    x.subquery = none ∧ x.operator ≠ .hasRows ∧ x.operator ≠ .hasNoRows

/-- A level whose tables, columns and aliases are names, and whose first table has no schema of
its own. -/
structure Named {Q : Type} (c : Clauses Q) : Prop where
  source : IsTable c.source.table ∧ IsName c.source.aliasName
  schema : given c.source.schema = none
  fields : ∀ x ∈ c.fields,
    IsTable x.table ∧ IsColumn x.column ∧ ∀ a, given x.aliasName = some a → IsName a
  joins : ∀ j ∈ c.joins, IsTable j.sourceTable ∧ IsName j.sourceAlias ∧ IsName j.sourceColumn ∧
    IsTable j.targetTable ∧ IsName j.targetAlias ∧ IsName j.targetColumn
  conditions : ∀ x ∈ c.conditions.getD [], IsTable x.table ∧ IsColumn x.column
  groupings : ∀ g ∈ c.groupings.getD [], IsTable g.table ∧ IsColumn g.column
  sortings : ∀ s ∈ c.sortings.getD [], IsTable s.table ∧ IsColumn s.column

section

variable {P Q : Type} {c : Clauses P} (f : P → Q)

/-- What stands for nested queries does not matter. -/
theorem Flat.map (h : Flat c) : Flat (c.map f) := by
  refine ⟨?_, ?_, ?_, ?_, ?_, ?_⟩
  · rw [Clauses.map, h.ctes, List.map_nil]
  · rw [Clauses.map, h.unions, List.map_nil]
  · rw [Clauses.map, Source.map, h.source, Option.map_none]
  · intro x hx
    obtain ⟨y, hy, rfl⟩ := List.mem_map.mp hx
    obtain ⟨subquery, expression⟩ := h.fields y hy
    exact ⟨by rw [Field.map, subquery, Option.map_none], expression⟩
  · intro j hj
    obtain ⟨k, hk, rfl⟩ := List.mem_map.mp hj
    obtain ⟨subquery, condition⟩ := h.joins k hk
    exact ⟨by rw [Join.map, subquery, Option.map_none], condition⟩
  · intro x hx
    rw [c.getD_conditions_map f] at hx
    obtain ⟨y, hy, rfl⟩ := List.mem_map.mp hx
    obtain ⟨subquery, operator⟩ := h.conditions y hy
    exact ⟨by rw [Condition.map, subquery, Option.map_none], operator⟩

theorem Named.map (h : Named c) : Named (c.map f) := by
  refine ⟨h.source, h.schema, List.forall_mem_map.mpr h.fields, List.forall_mem_map.mpr h.joins, ?_,
    h.groupings, h.sortings⟩
  rw [c.getD_conditions_map f]
  exact List.forall_mem_map.mpr h.conditions

end

section

variable {c : Clauses String}

theorem quiet_aliasOr (h : Named c) {table : String} (ht : IsTable table) :
    Quiet (aliasOr c.tableAliases table).toList := by
  rcases c.aliasOr_tableAliases table with same | same | ⟨j, hj, same⟩ <;> rw [same]
  · exact quiet_of_isTable ht
  · exact quiet_of_isName h.source.2
  · exact quiet_of_isName (h.joins j hj).2.2.2.2.1

theorem harmless_column (h : Named c) {table column : String} (ht : IsTable table)
    (hc : IsColumn column) : HarmlessPhrase d (columnRef c.tableAliases table column) :=
  harmless_columnRef (quiet_aliasOr h ht) hc

/-! ### SELECT -/

omit c in
theorem harmless_star : HarmlessPhrase d [.word "*"] := harmless_word (by decide)

omit c in
theorem harmless_as : HarmlessPhrase d [.word "AS"] := harmless_word (by decide)

omit c in
/-- A function called with something harmless. -/
theorem harmless_call (a : Aggregate) (p : Phrase) (h : HarmlessPhrase d p) :
    HarmlessPhrase d (.word a.name :: .word "(" :: p ++ [.word ")"]) := by
  have function : Quiet a.name.toList := by cases a <;> decide
  have called := h.call function
  rw [List.append_assoc] at called
  rw [List.cons_append, List.cons_append, HarmlessPhrase, Phrase.toList_text_cons,
    Phrase.toList_text_cons, Phrase.toList_text_append, Phrase.toList_text_singleton]
  exact called

/-- What SELECT lists is harmless. -/
theorem harmless_selectItems (flat : Flat c) (h : Named c) :
    ∀ item ∈ selectItems c.tableAliases c.fields, item ≠ [] ∧ ∀ p ∈ item, HarmlessPhrase d p := by
  refine forall_selectItems harmless_star fun x hx => ?_
  obtain ⟨table, column, named⟩ := h.fields x hx
  exact forall_fieldPhrases (flat.fields x hx) (harmless_column h table column) harmless_star
    harmless_call harmless_as fun a written => harmless_name (named a written)

/-! ### Clauses behind the joins -/

/-- Fragments of clauses that end a join condition, or no fragments. -/
def IsClause (d : Dialect) (ps : List Phrase) : Prop :=
  ps = [] ∨ ∃ k ∈ clauseWords, ∃ p more, ps = [.word k] :: p :: more ∧
    ∀ q ∈ p :: more, HarmlessPhrase d q

theorem quiet_clauseWord {k : String} (hk : k ∈ clauseWords) : Quiet k.toList := by
  have quiet : ∀ k ∈ clauseWords, Quiet k.toList := by decide
  exact quiet k hk

theorem IsClause.harmless {ps : List Phrase} (h : IsClause d ps) : ∀ p ∈ ps, HarmlessPhrase d p := by
  rcases h with rfl | ⟨k, hk, p, more, rfl, all⟩
  · intro p hp
    cases hp
  · intro q hq
    rcases List.mem_cons.mp hq with rfl | hq
    · exact harmless_word (quiet_clauseWord hk)
    · exact all q hq

/-- More harmless phrases belong to a clause that is there. -/
theorem IsClause.append {ps qs : List Phrase} (h : IsClause d ps) (all : ∀ q ∈ qs, HarmlessPhrase d q)
    (k : ps = [] → IsClause d qs) : IsClause d (ps ++ qs) := by
  rcases h with rfl | ⟨j, hj, p, more, rfl, harmless⟩
  · exact k rfl
  · refine Or.inr ⟨j, hj, p, more ++ qs, rfl, fun q hq => ?_⟩
    rw [← List.cons_append] at hq
    exact (List.mem_append.mp hq).elim (harmless q) (all q)

theorem harmless_value (v : Json) : HarmlessPhrase d [.value v] := by
  rw [HarmlessPhrase, Phrase.toList_text_singleton]
  exact harmless_literal v

/-- A clause of harmless phrases behind a word that ends a join condition. -/
theorem isClause_of_relClause {k : String} (hk : k ∈ clauseWords) {fs : List Fragment}
    (h : RelClause (fun p _ => HarmlessPhrase d p) k fs fs) : IsClause d (fs.map Fragment.phrase) := by
  rcases h.phrases with none | ⟨more, split, some, all⟩
  · exact Or.inl none
  · obtain ⟨p, more, rfl⟩ := List.exists_cons_of_ne_nil some
    exact Or.inr ⟨k, hk, p, more, split, all⟩

theorem isClause_conditions (flat : Flat c) (h : Named c) :
    IsClause d ((conditionFragments c.tableAliases (c.conditions.getD [])).map Fragment.phrase) := by
  refine isClause_of_relClause (k := "WHERE") (by decide)
    (forall_conditionFragments (fun w => ?_) fun x hx => ?_)
  · have quiet : Quiet w.name.toList := by cases w <;> decide
    exact harmless_word quiet
  · have operator : Quiet x.operator.name.toList := by cases x.operator <;> decide
    obtain ⟨table, column⟩ := h.conditions x hx
    exact forall_conditionPhrases (flat.conditions x hx) (harmless_column h table column)
      (harmless_word operator) (forall_operandPhrases (V := fun _ => True) (fun _ _ _ => trivial)
        (fun _ => trivial) (fun _ => harmless_value _) (harmless_word (by decide)) _ trivial)

theorem isClause_groupings (h : Named c) :
    IsClause d ((groupingFragments c.tableAliases (c.groupings.getD [])).map Fragment.phrase) :=
  isClause_of_relClause (k := "GROUP BY") (by decide) (rel_groupingFragments
    (fun p _ => harmless_comma p) fun g hg => harmless_column h (h.groupings g hg).1 (h.groupings g hg).2)

theorem isClause_sortings (h : Named c) :
    IsClause d ((sortingFragments c.tableAliases (c.sortings.getD [])).map Fragment.phrase) := by
  refine isClause_of_relClause (k := "ORDER BY") (by decide) (rel_sortingFragments
    (fun p _ => harmless_comma p) (fun s hs => harmless_column h (h.sortings s hs).1 (h.sortings s hs).2)
    fun w => ?_)
  have quiet : Quiet w.name.toList := by cases w <;> decide
  exact harmless_word quiet

theorem harmless_number (n : Nat) : HarmlessPhrase d [.word (toString n)] := by
  rw [HarmlessPhrase, Phrase.toList_text_singleton]
  exact harmless_natural n

omit c in
theorem harmless_pagingFragments (paging : Paging) :
    ∀ p ∈ (pagingFragments paging).map Fragment.phrase, HarmlessPhrase d p := by
  have quiet : ∀ s ∈ ["LIMIT", "OFFSET", "ROWS", "FETCH NEXT", "ROWS ONLY"], Quiet s.toList := by
    decide
  exact relFragments_same.mp (rel_pagingFragments paging (fun s hs => harmless_word (quiet s hs))
    harmless_number)

omit c in
/-- Without ORDER BY, what pages behind the joins starts with LIMIT. -/
theorem isClause_paging (limit : Option Limit) :
    IsClause d ((pagingFragments (pagingOf d limit false)).map Fragment.phrase) := by
  have harmless := harmless_pagingFragments (d := d) (pagingOf d limit false)
  have limited (ps : List Phrase) (p : Phrase) (all : ∀ q ∈ [.word "LIMIT"] :: p :: ps,
      HarmlessPhrase d q) : IsClause d ([.word "LIMIT"] :: p :: ps) :=
    Or.inr ⟨"LIMIT", by decide, p, ps, rfl, fun q hq => all q (List.mem_cons_of_mem _ hq)⟩
  cases limit with
  | none => exact Or.inl rfl
  | some l =>
    cases d with
    | mysql =>
      simp only [pagingOf] at harmless ⊢
      cases skipped : l.offset.filter (· ≠ 0) with
      | none =>
        rw [skipped] at harmless
        exact limited _ _ harmless
      | some n =>
        rw [skipped] at harmless
        exact limited _ _ harmless
    | sqlServer =>
      simp only [pagingOf]
      split
      · contradiction
      · exact Or.inl rfl
      · exact Or.inl rfl

/-- The fragments behind the joins, unions apart. -/
def tailFragments (d : Dialect) (c : Clauses String) : List Fragment :=
  conditionFragments c.tableAliases (c.conditions.getD []) ++
    (groupingFragments c.tableAliases (c.groupings.getD []) ++
      (sortingFragments c.tableAliases (c.sortings.getD []) ++
        pagingFragments (pagingOf d c.limit !(c.sortings.getD []).isEmpty)))

/-- What comes behind the joins, if anything, starts with a word that ends a join condition. -/
theorem isClause_tail (flat : Flat c) (h : Named c) :
    IsClause d ((tailFragments d c).map Fragment.phrase) := by
  have sorted : IsClause d ((sortingFragments c.tableAliases (c.sortings.getD []) ++
      pagingFragments (pagingOf d c.limit !(c.sortings.getD []).isEmpty)).map Fragment.phrase) := by
    rw [List.map_append]
    refine (isClause_sortings h).append (harmless_pagingFragments _) fun none => ?_
    have unsorted : c.sortings.getD [] = [] := by
      rw [sortingFragments] at none
      split at none
      · exact sortedBy_eq_nil ‹_›
      · rw [map_phrase_row] at none
        cases none
    rw [unsorted]
    exact isClause_paging c.limit
  have grouped : IsClause d ((groupingFragments c.tableAliases (c.groupings.getD []) ++
      (sortingFragments c.tableAliases (c.sortings.getD []) ++
        pagingFragments (pagingOf d c.limit !(c.sortings.getD []).isEmpty))).map Fragment.phrase) := by
    rw [List.map_append]
    exact (isClause_groupings h).append sorted.harmless fun _ => sorted
  rw [tailFragments, List.map_append]
  exact (isClause_conditions flat h).append grouped.harmless fun _ => grouped

end

end QueryWorkbench.Sql
