/-
QueryWorkbench.Proofs.Check.Aliases — which aliases of a query without issues are declared.

The check follows the tables that joins bring in and the names that columns may go by, but not the
aliases that the joins themselves are written with, and the SQL declares one alias only for all
joins of the same two tables. So a query can pass the check and still use an alias that no table has
(`not_resolved_ordersUnder`). `resolved_iff` says exactly when it does not: the two aliases of every
join are declared, and so is every alias of a nested query that a column is named by.

## How the proof goes

What the SQL uses and what it declares are tokens of its fragments, and which ones there are is
known (`Sql/Aliases.lean`). A column is written under the alias that its table name leads to, that
of the first table or of a join, or else under the name itself (`aliasOr_cases`). In the last case
the check has found the name in scope (`mem_names_of_references`), so that it is an alias of the
first table or of a join, or one of a nested query, which is what `AliasesDeclared.columns` speaks
of. In the other direction each join writes both of its aliases, and each column its own
(`declared_of_resolved`).

## The side conditions

* `TextFree`: an expression or a condition that is copied as text is not read, and may use any
  alias.
* The first table has an alias, since the columns of a table without one stand under its name.
* The query has no issues, which is what the check is for.
-/
import Mathlib.Data.List.Basic
import QueryWorkbench.Check.Structure
import QueryWorkbench.Proofs.Query.TableAlias
import QueryWorkbench.Proofs.Sql.Aliases

namespace QueryWorkbench.Check

/-! ## Nested queries -/

section

variable {P Q : Type} (graph : Option SchemaGraph) (named : List String) (f : P → Q)

theorem targetIssues_map (j : Join P) :
    targetIssues graph named (j.map f) = targetIssues graph named j := by
  have nested : (j.map f).subquery.isSome = j.subquery.isSome := Option.isSome_map
  rw [targetIssues.eq_def, targetIssues.eq_def, nested]
  rfl

theorem joinIssues_map (scope : Scope) (j : Join P) :
    joinIssues graph named scope (j.map f) = joinIssues graph named scope j := by
  rw [joinIssues, joinIssues, targetIssues_map]
  rfl

theorem walkJoins_map (scope : Scope) (joins : List (Join P)) :
    walkJoins graph named scope (joins.map (Join.map f)) = walkJoins graph named scope joins := by
  induction joins generalizing scope with
  | nil => rfl
  | cons j rest ih =>
    have same : scope.addJoin (j.map f) = scope.addJoin j := rfl
    rw [List.map_cons, walkJoins, walkJoins, same, ih, joinIssues_map]

theorem duplicateIssues_map (seen : List (String × String)) (fields : List (Field P)) :
    duplicateIssues seen (fields.map (Field.map f)) = duplicateIssues seen fields := by
  induction fields generalizing seen with
  | nil => rfl
  | cons x rest ih => simp [duplicateIssues, Field.map, ih]

theorem references_map (c : Clauses P) : references (c.map f) = references c := by
  rw [references, references, c.getD_conditions_map f]
  simp [Clauses.map, List.filter_map, Function.comp_def, Field.map, Condition.map]

theorem sourceIssues_map (s : Source P) :
    sourceIssues graph named (s.map f) = sourceIssues graph named s := by
  have nested : (s.map f).subquery.isSome = s.subquery.isSome := Option.isSome_map
  rw [sourceIssues, sourceIssues, nested]
  rfl

/-- The check does not look into nested queries. -/
theorem issues_map (c : Clauses P) : issues graph (c.map f) = issues graph c := by
  have ctes : (c.map f).ctes.map (·.name) = c.ctes.map (·.name) := by
    simp [Clauses.map, Cte.map]
  have source : (c.map f).source = c.source.map f := rfl
  have joins : (c.map f).joins = c.joins.map (Join.map f) := rfl
  have fields : (c.map f).fields = c.fields.map (Field.map f) := rfl
  have scope : Scope.ofSource (c.source.map f) = Scope.ofSource c.source := rfl
  rw [issues, issues, references_map, ctes, source, joins, fields, scope, walkJoins_map,
    sourceIssues_map, duplicateIssues_map]

end

/-! ## What a query without issues refers to -/

section

variable {Q : Type} {graph : Option SchemaGraph} {named : List String}

/-- The names that can be used after some joins. -/
theorem mem_names_walkJoins {scope : Scope} {joins : List (Join Q)} {t : String} :
    t ∈ (walkJoins graph named scope joins).2.names ↔ t ∈ scope.names ∨
      ∃ j ∈ joins, t ≠ "" ∧ (t = j.targetTable ∨ t = j.targetAlias ∨ j.subqueryAlias = some t) := by
  induction joins generalizing scope with
  | nil => simp [walkJoins]
  | cons j rest ih =>
    have added : t ∈ (scope.addJoin j).names ↔ t ∈ scope.names ∨
        t ≠ "" ∧ (t = j.targetTable ∨ t = j.targetAlias ∨ j.subqueryAlias = some t) := by
      simp only [Scope.addJoin, List.mem_append, List.mem_filter, List.mem_cons, List.not_mem_nil,
        or_false, Option.mem_toList, decide_eq_true_eq]
      rw [or_assoc, and_comm]
    rw [walkJoins, ih, added, List.exists_mem_cons_iff, or_assoc]

theorem mem_names_of_references {c : Clauses Q} (passed : issues graph c = []) {r : Reference}
    (hr : r ∈ references c) (table_ne : r.table ≠ "") :
    r.table ∈ (walkJoins graph (c.ctes.map (·.name)) (Scope.ofSource c.source) c.joins).2.names := by
  have none_missing := (List.append_eq_nil_iff.mp passed).2
  rw [referenceIssues, List.map_eq_nil_iff, List.filter_eq_nil_iff] at none_missing
  have kept := none_missing r hr
  simpa [table_ne] using kept

/-- Every printed column is a reference. -/
theorem exists_reference {c : Clauses Q} {p : String × String} (hp : p ∈ Sql.printedColumns c) :
    ∃ r ∈ references c, r.table = p.1 := by
  simp only [references, List.mem_append, List.mem_map, List.mem_filter]
  rcases Sql.exists_mem_printedColumns.mp ⟨p, hp, rfl⟩ with
    ⟨x, hx, printed, rfl⟩ | ⟨x, hx, -, rfl⟩ | ⟨g, hg, rfl⟩ | ⟨s, hs, rfl⟩
  · simp only [Sql.printsColumn, Bool.and_eq_true] at printed
    exact ⟨_, Or.inl (Or.inl (Or.inl ⟨x, ⟨hx, printed.1.2⟩, rfl⟩)), rfl⟩
  · exact ⟨_, Or.inl (Or.inl (Or.inr ⟨x, hx, rfl⟩)), rfl⟩
  · exact ⟨_, Or.inl (Or.inr ⟨g, hg, rfl⟩), rfl⟩
  · exact ⟨_, Or.inr ⟨s, hs, rfl⟩, rfl⟩

end

/-! ## Aliases -/

/-- No part of a query is copied from text: no expression, no condition of a join, no text for
EXISTS. -/
structure TextFree {Q : Type} (c : Clauses Q) : Prop where
  fields : ∀ x ∈ c.fields, Sql.given x.expression = none
  joins : ∀ j ∈ c.joins, Sql.given j.condition = none
  conditions : ∀ x ∈ c.conditions.getD [], x.operator = .hasRows ∨ x.operator = .hasNoRows →
    x.subquery = none → x.value.isTruthy = false

/-- Every alias that a column stands under is one that a table gets. -/
def Resolved (fs : List Sql.Fragment) : Prop :=
  ∀ a, .owner a ∈ Sql.tokens fs → a ≠ "" ∧ .declared a ∈ Sql.tokens fs

/-- What the check leaves open about the aliases of a query: that both aliases of every join are
declared, and so is the alias of a nested query where a column goes by it. -/
structure AliasesDeclared {Q : Type} (c : Clauses Q) : Prop where
  joins : ∀ j ∈ c.joins, j.sourceAlias ∈ Sql.declaredAliases c ∧ j.targetAlias ∈ Sql.declaredAliases c
  columns : ∀ p ∈ Sql.printedColumns c, ∀ j ∈ c.joins, j.subqueryAlias = some p.1 →
    p.1 ∈ "" :: c.source.table :: c.joins.map (·.targetTable) ∨ p.1 ∈ Sql.declaredAliases c

theorem aliasesDeclared_map {P Q : Type} (f : P → Q) (c : Clauses P) :
    AliasesDeclared (c.map f) ↔ AliasesDeclared c := by
  have joins : (c.map f).joins = c.joins.map (Join.map f) := rfl
  have source : (c.map f).source.table = c.source.table := rfl
  constructor
  · rintro ⟨declared, columns⟩
    rw [Sql.declaredAliases_map, joins] at declared columns
    rw [Sql.printedColumns_map, source, List.map_map] at columns
    exact ⟨fun j hj => declared _ (List.mem_map_of_mem hj),
      fun p hp j hj h => columns p hp _ (List.mem_map_of_mem hj) h⟩
  · rintro ⟨declared, columns⟩
    refine ⟨?_, ?_⟩ <;> rw [Sql.declaredAliases_map, joins]
    · intro k hk
      obtain ⟨j, hj, rfl⟩ := List.mem_map.mp hk
      exact declared j hj
    · rw [Sql.printedColumns_map, source, List.map_map]
      intro p hp k hk h
      obtain ⟨j, hj, rfl⟩ := List.mem_map.mp hk
      exact columns p hp j hj h

section

variable {c : Clauses String}

/-- A table stands in the SQL under the alias of the first table or of a join, provided that
these are not empty; any other name stands for itself. -/
theorem aliasOr_cases (declared : ∀ j ∈ c.joins, j.targetAlias ≠ "")
    (named : c.source.aliasName ≠ "") (table : String) :
    (aliasOr c.tableAliases table = c.source.aliasName ∨
        ∃ j ∈ c.joins, aliasOr c.tableAliases table = j.targetAlias) ∨
      aliasOr c.tableAliases table = table ∧ Assoc.get? table c.tableAliases = none := by
  rw [aliasOr]
  cases found : Assoc.get? table c.tableAliases with
  | none => exact Or.inr ⟨rfl, rfl⟩
  | some a =>
    refine Or.inl ?_
    rcases Clauses.eq_of_get?_tableAliases found with rfl | ⟨j, hj, rfl⟩
    · exact Or.inl (by simp [Option.filter, named])
    · exact Or.inr ⟨j, hj, by simp [Option.filter, declared j hj]⟩

theorem resolved_of_declared (graph : Option SchemaGraph) (d : Dialect)
    (named : c.source.aliasName ≠ "") (passed : issues graph c = [])
    (declared : AliasesDeclared c) : Resolved (Sql.fragments d c) := by
  have nonempty : ∀ a ∈ Sql.declaredAliases c, a ≠ "" := fun a ha => by
    simpa using (List.mem_filter.mp ha).2
  have source : c.source.aliasName ∈ Sql.declaredAliases c := by
    simp [Sql.declaredAliases, named]
  have target := fun j hj => (declared.joins j hj).2
  intro a used
  -- It is enough that the alias is one of those that tables get.
  suffices a ∈ Sql.declaredAliases c from
    ⟨nonempty a this, (Sql.declared_mem_fragments (nonempty a this)).mpr this⟩
  rcases Sql.owner_mem_fragments.mp used with ⟨j, hj, -, rfl | rfl⟩ | ⟨a_ne, p, hp, rfl⟩
  · exact (declared.joins j hj).1
  · exact target j hj
  · rcases aliasOr_cases (fun j hj => nonempty _ (target j hj)) named p.1 with
      (same | ⟨j, hj, same⟩) | ⟨same, unknown⟩
    · exact same ▸ source
    · exact same ▸ target j hj
    · rw [same] at a_ne ⊢
      have no_table := (Clauses.get?_tableAliases_eq_none_iff a_ne).mp unknown
      obtain ⟨r, hr, table_eq⟩ := exists_reference hp
      have known := mem_names_of_references passed hr (table_eq ▸ a_ne)
      rw [table_eq] at known
      rcases mem_names_walkJoins.mp known with first | ⟨j, hj, -, h | h | h⟩
      · have first : p.1 = c.source.table ∨ p.1 = c.source.aliasName := by
          simpa using (List.mem_filter.mp first).1
        rcases first with h | h
        · exact absurd (h ▸ List.mem_cons_self ..) no_table
        · exact h ▸ source
      · exact absurd (List.mem_cons_of_mem _ (List.mem_map.mpr ⟨j, hj, h.symm⟩)) no_table
      · exact h ▸ target j hj
      · rcases declared.columns p hp j hj h with table | declared
        · exact absurd table (by simpa [a_ne] using no_table)
        · exact declared

theorem declared_of_resolved {d : Dialect} (written : ∀ j ∈ c.joins, Sql.given j.condition = none)
    (resolved : Resolved (Sql.fragments d c)) : AliasesDeclared c := by
  have declared : ∀ a, .owner a ∈ Sql.tokens (Sql.fragments d c) → a ∈ Sql.declaredAliases c :=
    fun a used => (Sql.declared_mem_fragments (resolved a used).1).mp (resolved a used).2
  refine ⟨fun j hj => ⟨?_, ?_⟩, ?_⟩
  · exact declared _ (Sql.owner_mem_fragments.mpr (Or.inl ⟨j, hj, written j hj, Or.inl rfl⟩))
  · exact declared _ (Sql.owner_mem_fragments.mpr (Or.inl ⟨j, hj, written j hj, Or.inr rfl⟩))
  · intro p hp j hj h
    by_cases table : p.1 ∈ "" :: c.source.table :: c.joins.map (·.targetTable)
    · exact Or.inl table
    · rw [List.mem_cons, not_or] at table
      have unknown := (Clauses.get?_tableAliases_eq_none_iff table.1).mpr table.2
      have same : aliasOr c.tableAliases p.1 = p.1 := by
        rw [aliasOr, unknown]
        rfl
      exact Or.inr (declared _ (Sql.owner_mem_fragments.mpr (Or.inr ⟨table.1, p, hp, same⟩)))

end

/-- The SQL of a query without issues uses declared aliases only, exactly when its joins do and
its columns go by no other alias of a nested query. -/
theorem resolved_iff (graph : Option SchemaGraph) (d : Dialect) {q : Query}
    (textFree : TextFree q.clauses) (named : q.clauses.source.aliasName ≠ "")
    (passed : issues graph q.clauses = []) :
    Resolved (Sql.queryFragments d q) ↔ AliasesDeclared q.clauses := by
  rw [Sql.queryFragments, ← aliasesDeclared_map (Sql.compactText d)]
  constructor
  · refine declared_of_resolved ?_
    intro k hk
    obtain ⟨j, hj, rfl⟩ := List.mem_map.mp hk
    exact textFree.joins j hj
  · refine resolved_of_declared graph d named ?_
    rw [issues_map]
    exact passed

/-- Orders with their customers; the join is written with the given alias of orders. -/
def ordersUnder (aliasName : String) : Query :=
  .mk {
    source := { table := "orders", aliasName := "o" }
    joins := [{
      id := "j1", sourceTable := "orders", sourceAlias := aliasName, sourceColumn := "customer_id",
      targetTable := "customers", targetAlias := "c", targetColumn := "id" }] }

theorem textFree_ordersUnder (aliasName : String) : TextFree (ordersUnder aliasName).clauses := by
  refine ⟨?_, ?_, ?_⟩
  · intro x hx
    cases hx
  · intro j hj
    obtain rfl := List.mem_singleton.mp hj
    rfl
  · intro x hx
    cases hx

theorem resolved_iff_ordersUnder :
    TextFree (ordersUnder "o").clauses ∧ (ordersUnder "o").clauses.source.aliasName ≠ ""
      ∧ issues none (ordersUnder "o").clauses = []
      ∧ (Resolved (Sql.queryFragments .mysql (ordersUnder "o")) ↔
        AliasesDeclared (ordersUnder "o").clauses) := by
  have named : (ordersUnder "o").clauses.source.aliasName ≠ "" := by decide
  have passed : issues none (ordersUnder "o").clauses = [] := by decide
  exact ⟨textFree_ordersUnder "o", named, passed,
    resolved_iff none .mysql (textFree_ordersUnder "o") named passed⟩

/-- A join may be written with an alias that no table has, and the check finds no issue. -/
theorem not_resolved_ordersUnder :
    TextFree (ordersUnder "zzz").clauses ∧ (ordersUnder "zzz").clauses.source.aliasName ≠ ""
      ∧ issues none (ordersUnder "zzz").clauses = []
      ∧ ¬ Resolved (Sql.queryFragments .mysql (ordersUnder "zzz")) := by
  refine ⟨textFree_ordersUnder "zzz", by decide, by decide, ?_⟩
  intro resolved
  have declared := declared_of_resolved (fun j hj => ?_) resolved
  · rw [aliasesDeclared_map] at declared
    have member := (declared.joins _ (List.mem_singleton.mpr rfl)).1
    exact absurd member (by decide)
  · obtain rfl := List.mem_singleton.mp hj
    rfl

end QueryWorkbench.Check
