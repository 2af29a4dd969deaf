/-
QueryWorkbench.Proofs.Sql.Confined — texts of conditions stay inside their literals.

Where no name and no copied text has a quote, a dash or a slash, stripping leaves of the SQL of a
query the SQL of the query with its conditions emptied (`strips_generate`). Queries that differ in
such texts only are therefore the same to the analysis (`scrub_generate_of_emptied_eq`).

## How the proof goes

`StripsPhrase` relates a phrase to what stripping leaves of it, and is one of the relations that
`Sql/Phrases.lean` carries through the clauses: for each of them only its own names and values have
to be looked at. The two levels that are compared have the same clauses and two texts for every
nested query, what is generated for it and what stripping leaves of that (`f` and `g`). So
`strips_fragments` is about one level, and `strips_generate` the induction over the nested queries.
Emptying two queries that differ in such texts makes them equal, and then so is what is left of
both.

## The side conditions

* `UnmarkedQuery`: a quote, a dash or a slash in a name or a copied text could open or close a
  literal or a comment. This is asked at every depth, and of the values of EXISTS too, which are
  copied where there is no nested query.
* For the analysis both texts are within the limit. It reads nothing of a longer one, and two texts
  may be of different length.

Of the texts in literals nothing is asked.
-/
import QueryWorkbench.Analysis.Report
import QueryWorkbench.Proofs.Query.JoinGroup
import QueryWorkbench.Proofs.Query.TableAlias
import QueryWorkbench.Proofs.Sql.Stripped

namespace QueryWorkbench.Sql

open Analysis Text

variable {d : Dialect}

/-! ## Levels -/

/-- A level in whose names and copied texts no quote, dash or slash stands. -/
structure UnmarkedLevel {Q : Type} (c : Clauses Q) : Prop where
  source : Unmarked c.source.table ∧ Unmarked c.source.aliasName ∧ ∀ s ∈ c.source.schema, Unmarked s
  fields : ∀ x ∈ c.fields, Unmarked x.table ∧ Unmarked x.column ∧
    (∀ a ∈ x.aliasName, Unmarked a) ∧ ∀ e ∈ x.expression, Unmarked e
  joins : ∀ j ∈ c.joins, Unmarked j.sourceAlias ∧ Unmarked j.sourceColumn ∧
    Unmarked j.targetTable ∧ Unmarked j.targetAlias ∧ Unmarked j.targetColumn ∧
    (∀ s ∈ j.condition, Unmarked s) ∧ ∀ a ∈ j.subqueryAlias, Unmarked a
  conditions : ∀ x ∈ c.conditions.getD [], Unmarked x.table ∧ Unmarked x.column ∧
    (x.asksForRows → x.subquery = none → x.value.isTruthy = true → Unmarked x.value.plain)
  groupings : ∀ g ∈ c.groupings.getD [], Unmarked g.table ∧ Unmarked g.column
  sortings : ∀ s ∈ c.sortings.getD [], Unmarked s.table ∧ Unmarked s.column
  ctes : ∀ x ∈ c.ctes, Unmarked x.name ∧ ∀ names ∈ x.columns, ∀ s ∈ names, Unmarked s

section

variable {P : Type} {c : Clauses P} (h : UnmarkedLevel c)
include h

theorem strips_column {table column : String} (named : Unmarked table ∧ Unmarked column) :
    StripsPhrase d (columnRef c.tableAliases table column)
      (columnRef c.tableAliases table column) := by
  refine strips_columnRef ?_ named.2
  rcases c.aliasOr_tableAliases table with same | same | ⟨j, hj, same⟩ <;> rw [same]
  · exact named.1
  · exact h.source.2.1
  · exact (h.joins j hj).2.2.2.1

theorem strips_joinCondition {j : Join P} (hj : j ∈ c.joins) :
    ∀ p ∈ joinCondition j, StripsPhrase d p p := by
  obtain ⟨source, sourceColumn, -, target, targetColumn, condition, -⟩ := h.joins j hj
  have side {a col : String} (ha : Unmarked a) (hc : Unmarked col) :
      StripsPhrase d [.owner a, .name col] [.owner a, .name col] :=
    strips_of_unmarked (List.forall_mem_cons.mpr ⟨ha.append (t := ".") (by decide),
      List.forall_mem_singleton.mpr (hc.quote d)⟩)
  exact (forall_joinCondition (P := fun p => StripsPhrase d p p)
    (fun s written => strips_raw (condition s (Option.eq_some_of_filter_eq_some written)).strips)
    (strips_word (by decide)) (side source sourceColumn) (side target targetColumn)).2

variable {f g : P → String} (inner : c.EachNested fun q => Strips (f q).toList (g q).toList)
include inner

/-! ### One lemma for each clause with nested queries -/

theorem strips_cteFragments :
    RelFragments (StripsPhrase d) (cteFragments d (c.map f).ctes) (cteFragments d (c.map g).ctes) := by
  have words : ∀ s ∈ ["WITH", "RECURSIVE"], Unmarked s := by decide
  refine rel_cteFragments d (fun s hs => strips_word (words s hs)) strips_comma
    (forall₂_map_same.mpr fun x hx => ?_)
  obtain ⟨name, names⟩ := h.ctes x hx
  have signs : ∀ s ∈ ["(", ", ", ")"], Unmarked s := by decide
  exact ⟨rfl, rel_ctePhrases x (strips_name name)
    (fun p hp => strips_of_unmarked (forall_mem_cteColumns (T := fun t => Unmarked (t.text d)) signs
      (fun ns written s hs => (names ns written s hs).quote d) p hp))
    (strips_word (by decide)) (strips_nested (inner.ctes x hx))⟩

theorem strips_selectFragments (top : Option Nat) :
    RelFragments (StripsPhrase d) (selectFragments c.tableAliases (c.map f).fields top)
      (selectFragments c.tableAliases (c.map g).fields top) := by
  have words : ∀ s ∈ ["SELECT", "TOP", "*"], Unmarked s := by decide
  refine rel_selectFragments top (fun s hs => strips_word (words s hs)) strips_number strips_comma
    (forall₂_map_same.mpr fun x hx => ?_)
  obtain ⟨table, column, named, expression⟩ := h.fields x hx
  have selected := rel_selectedPhrase (R := StripsPhrase d) x
    (relNested_map fun q hq => strips_nested (inner.fields x hx q hq))
    (fun e written => strips_raw (expression e (Option.eq_some_of_filter_eq_some written)).strips)
    (strips_column h ⟨table, column⟩) (strips_word (by decide)) strips_call
  exact ⟨rfl, rel_fieldPhrases x selected (strips_word (by decide)) fun a written =>
    strips_name (named a (Option.eq_some_of_filter_eq_some written))⟩

theorem strips_source :
    RelFragments (StripsPhrase d) (row .line (sourcePhrases (c.map f).source))
      (row .line (sourcePhrases (c.map g).source)) := by
  obtain ⟨table, aliasName, schema⟩ := h.source
  exact (rel_sourcePhrases c.source
    (relNested_map fun q hq => strips_nested (inner.source q hq)) (strips_tablePhrase table schema)
    (strips_word (by decide)) (strips_declared aliasName)).fragments (strips_word (by decide))

theorem strips_joinFragments {j : JoinGroup P} (members : ∀ k ∈ j.members, k ∈ c.joins) :
    RelFragments (StripsPhrase d) (joinFragments (j.map f)) (joinFragments (j.map g)) := by
  have first : j.first ∈ c.joins := members j.first (List.mem_cons_self ..)
  obtain ⟨-, -, table, target, -, -, subqueryAlias⟩ := h.joins j.first first
  have words : ∀ s ∈ ["JOIN", "ON", "AND"], Unmarked s := by decide
  have kind : Unmarked j.first.kind.name := by cases j.first.kind <;> decide
  have same (m : P → String) : (j.map m).members.map joinCondition = j.members.map joinCondition := by
    simp only [JoinGroup.map, JoinGroup.members, List.map_cons, List.map_map]
    rfl
  refine rel_joinFragments (fun s hs => strips_word (words s hs)) (strips_word kind)
    (rel_joinTarget j.first (relNested_map fun q hq => strips_nested (inner.joins _ first q hq))
      (strips_tablePhrase table (by simp)) (strips_word (by decide)) (strips_declared target)
      fun _ a written => strips_declared (subqueryAlias a (Option.eq_some_of_filter_eq_some written))) ?_
  rw [same, same]
  exact forall₂_map_same.mpr fun k hk =>
    List.forall₂_same.mpr (strips_joinCondition h (members k hk))

theorem strips_joins : RelFragments (StripsPhrase d)
    ((JoinGroup.ofJoins (c.map f).joins).flatMap joinFragments)
    ((JoinGroup.ofJoins (c.map g).joins).flatMap joinFragments) := by
  have groups : List.Forall₂ (fun j k => RelFragments (StripsPhrase d) (joinFragments j)
      (joinFragments k)) (JoinGroup.ofJoins (c.map f).joins) (JoinGroup.ofJoins (c.map g).joins) := by
    rw [Clauses.map, Clauses.map, JoinGroup.ofJoins_map, JoinGroup.ofJoins_map]
    exact forall₂_map_same.mpr fun j hj => strips_joinFragments h inner fun k hk =>
      JoinGroup.exists_mem_ofJoins.mp ⟨j, hj, hk⟩
  exact List.rel_flatMap groups fun _ _ one => one

theorem strips_conditionPhrases {x : Condition P} (hx : x ∈ c.conditions.getD []) :
    List.Forall₂ (StripsPhrase d) (conditionPhrases c.tableAliases (x.map f))
      (conditionPhrases c.tableAliases (x.map g).emptied) := by
  obtain ⟨table, column, copied⟩ := h.conditions x hx
  have operator : Unmarked x.operator.name := by cases x.operator <;> decide
  have nested := inner.conditions x hx
  refine rel_conditionPhrases rfl (strips_column h ⟨table, column⟩) (strips_word operator)
    (fun rows => strips_nested ?_) (fun _ => relNested_map fun q hq => strips_nested (nested q hq))
    fun rows _ => ?_
  · rw [Condition.emptied_of_asksForRows (c := x.map g) rows, asked, asked, Condition.map, Condition.map]
    cases there : x.subquery with
    | some q => exact nested q there
    | none =>
      have given : Unmarked (if x.value.isTruthy then x.value.plain else "SELECT 1") := by
        split
        · exact copied rows there ‹_›
        · decide
      exact given.strips
  · rw [Condition.emptied_of_not_asksForRows (c := x.map g) rows]
    exact strips_operandPhrases x.operator x.value

theorem strips_conditionFragments : RelFragments (StripsPhrase d)
    (conditionFragments c.tableAliases ((c.map f).conditions.getD []))
    (conditionFragments c.tableAliases ((c.map g).emptied.conditions.getD [])) := by
  have connective (k : Connective) : Unmarked k.name := by cases k <;> decide
  refine (rel_conditionFragments (fun k => strips_word (connective k)) ?_).fragments
    (strips_word (by decide))
  rw [Clauses.getD_conditions_map, Clauses.getD_conditions_emptied, Clauses.getD_conditions_map,
    List.map_map]
  exact forall₂_map_same.mpr fun x hx => ⟨rfl, rfl, strips_conditionPhrases h inner hx⟩

omit h in
theorem strips_unionFragments :
    RelFragments (StripsPhrase d) (unionFragments (c.map f).unions) (unionFragments (c.map g).unions) := by
  have kind (k : UnionKind) : Unmarked k.name := by cases k <;> decide
  exact rel_unionFragments (fun k => strips_word (kind k))
    (forall₂_map_same.mpr fun u hu => ⟨rfl, rfl, strips_raw (inner.unions u hu)⟩)

/-- Of the fragments of a level, those of the emptied level are left. -/
theorem strips_fragments :
    RelFragments (StripsPhrase d) (fragments d (c.map f)) (fragments d (c.map g).emptied) := by
  have aliases (m : P → String) : (c.map m).tableAliases = c.tableAliases := by
    simp only [Clauses.tableAliases, Clauses.map, Source.map, List.foldl_map]
    rfl
  have emptied : (c.map g).emptied.tableAliases = (c.map g).tableAliases := rfl
  have grouped := (rel_groupingFragments (R := StripsPhrase d) strips_comma fun x hx =>
    strips_column h (h.groupings x hx)).fragments (strips_word (by decide))
  have direction (k : Direction) : Unmarked k.name := by cases k <;> decide
  have sorted := (rel_sortingFragments (R := StripsPhrase d) strips_comma
    (fun x hx => strips_column h (h.sortings x hx)) fun k => strips_word (direction k)).fragments
      (strips_word (by decide))
  have words : ∀ s ∈ ["LIMIT", "OFFSET", "ROWS", "FETCH NEXT", "ROWS ONLY"], Unmarked s := by decide
  have paged := rel_pagingFragments (R := StripsPhrase d) (pagingOf d c.limit !(c.sortings.getD []).isEmpty)
    (fun s hs => strips_word (words s hs)) strips_number
  rw [fragments, fragments, emptied, aliases, aliases]
  exact List.rel_append (List.rel_append (List.rel_append (List.rel_append (List.rel_append
    (List.rel_append (List.rel_append (List.rel_append (strips_cteFragments h inner)
    (strips_selectFragments h inner _)) (strips_source h inner)) (strips_joins h inner))
    (strips_conditionFragments h inner)) grouped) (strips_unionFragments inner)) sorted) paged

end

/-! ## Queries -/

/-- A query in whose names and copied texts, at every level, no quote, dash or slash stands. -/
abbrev UnmarkedQuery (q : Query) : Prop := q.Everywhere UnmarkedLevel

theorem generate_compact (d : Dialect) (q : Query) : generate d .compact q = compactText d q := by
  cases q with
  | mk c =>
    rw [compactText, Query.fold_mk]
    rfl

/-- Of the SQL of a query, the SQL of the emptied query is left. -/
theorem strips_generate (layout : Layout) {q : Query} (h : UnmarkedQuery q) :
    Strips (generate d layout q).toList (generate d layout q.emptied).toList := by
  induction h generalizing layout with
  | @mk c level _ ih =>
    -- Nested queries are compact in either layout.
    have inner : c.EachNested fun q =>
        Strips (compactText d q).toList (compactText d q.emptied).toList :=
      Clauses.forall_nested_iff.mp fun q hq => by
        simpa only [generate_compact] using ih q hq .compact
    rw [Query.emptied_mk, generate, generate, queryFragments, queryFragments, Query.clauses,
      Query.clauses, ← Clauses.emptied_map, Clauses.map_map]
    exact strips_render layout (strips_fragments level inner)

/-- Texts that conditions compare with stay inside their literals: queries that differ only in
these are the same once their SQL is scrubbed, and the analysis reports the same for them. -/
theorem scrub_generate_of_emptied_eq (d : Dialect) (layout : Layout) {q r : Query}
    (hq : UnmarkedQuery q) (hr : UnmarkedQuery r) (same : q.emptied = r.emptied) :
    scrub (generate d layout q) = scrub (generate d layout r) ∧
      ∀ limits : Limits, (generate d layout q).length ≤ limits.maxLength →
        (generate d layout r).length ≤ limits.maxLength →
        analyze limits (generate d layout q) = analyze limits (generate d layout r) := by
  have stripped : strip .code [] (generate d layout q).toList =
      strip .code [] (generate d layout r).toList := by
    rw [(strips_generate layout hq).strip_eq, (strips_generate layout hr).strip_eq, same]
  have scrubbed : scrubChars (generate d layout q).toList = scrubChars (generate d layout r).toList := by
    rw [scrubChars, scrubChars, stripped]
  refine ⟨by rw [scrub, scrub, scrubbed], fun limits short short' => ?_⟩
  rw [analyze, analyze, if_neg (Int.not_lt.mpr short), if_neg (Int.not_lt.mpr short'), scrubbed]

/-- Orders with one of some notes. -/
def ordersNoted (notes : List String) : Query :=
  .mk { source := { table := "orders", aliasName := "o" },
        conditions := some [
          { table := "orders", column := "note", operator := .isIn, value := .ofStrings notes }] }

/-- The customers of a city, behind a named query of orders. -/
def customersIn (city : String) (notes : List String) : Query :=
  .mk { source := { table := "customers", aliasName := "c" },
        conditions := some [{ table := "customers", column := "city", value := .str city }],
        ctes := [{ name := "noted", query := ordersNoted notes }] }

theorem unmarked_ordersNoted (notes : List String) : UnmarkedQuery (ordersNoted notes) := by
  refine .mk ?_ (by simp [Clauses.nested])
  constructor <;> simp [Condition.asksForRows] <;> decide

theorem unmarked_customersIn (city : String) (notes : List String) :
    UnmarkedQuery (customersIn city notes) := by
  refine .mk ?_ fun q hq => ?_
  · constructor <;> simp [Condition.asksForRows] <;> decide
  · obtain rfl : q = ordersNoted notes := by simpa [Clauses.nested] using hq
    exact unmarked_ordersNoted notes

theorem scrub_generate_customersIn :
    UnmarkedQuery (customersIn "Paris" ["late"]) ∧
      UnmarkedQuery (customersIn "' OR 1 = 1 --" ["it's /* JOIN"]) ∧
      (customersIn "Paris" ["late"]).emptied = (customersIn "' OR 1 = 1 --" ["it's /* JOIN"]).emptied ∧
      scrub (generate .mysql .pretty (customersIn "Paris" ["late"])) =
        scrub (generate .mysql .pretty (customersIn "' OR 1 = 1 --" ["it's /* JOIN"])) ∧
      analyze ⟨1000, 100, 10⟩ (generate .mysql .pretty (customersIn "Paris" ["late"])) =
        analyze ⟨1000, 100, 10⟩
          (generate .mysql .pretty (customersIn "' OR 1 = 1 --" ["it's /* JOIN"])) := by
  have plain := unmarked_customersIn "Paris" ["late"]
  have hostile := unmarked_customersIn "' OR 1 = 1 --" ["it's /* JOIN"]
  have same : (customersIn "Paris" ["late"]).emptied =
      (customersIn "' OR 1 = 1 --" ["it's /* JOIN"]).emptied := by rfl
  obtain ⟨scrubbed, analyzed⟩ := scrub_generate_of_emptied_eq .mysql .pretty plain hostile same
  exact ⟨plain, hostile, same, scrubbed,
    analyzed ⟨1000, 100, 10⟩ (by decide +kernel) (by decide +kernel)⟩

end QueryWorkbench.Sql
