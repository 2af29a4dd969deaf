/-
QueryWorkbench.Proofs.Sql.Aliases — the aliases in the SQL of one level.

An alias is declared where a table gets it and used where a column stands under it; both are read
off the tokens. `owner_mem_fragments` and `declared_mem_fragments` say which aliases these are in
terms of the clauses: every join uses its two aliases, every printed column the alias of its
table, and a group of joins declares one alias only, that of its first member.
-/
import QueryWorkbench.Proofs.Query.JoinGroup
import QueryWorkbench.Proofs.Sql.Phrases

namespace QueryWorkbench.Sql

/-! ## Aliases -/

/-- The columns, each with its table, that SELECT, WHERE, GROUP BY and ORDER BY are written
with. -/
def printedColumns {Q : Type} (c : Clauses Q) : List (String × String) :=
  (c.fields.filter printsColumn).map (fun x => (x.table, x.column))
    ++ ((c.conditions.getD []).filter comparesColumn).map (fun x => (x.table, x.column))
    ++ (c.groupings.getD []).map (fun g => (g.table, g.column))
    ++ (c.sortings.getD []).map (fun s => (s.table, s.column))

theorem exists_mem_printedColumns {Q : Type} {c : Clauses Q} {P : String × String → Prop} :
    (∃ p ∈ printedColumns c, P p) ↔
      (∃ x ∈ c.fields, printsColumn x = true ∧ P (x.table, x.column))
        ∨ (∃ x ∈ c.conditions.getD [], comparesColumn x = true ∧ P (x.table, x.column))
        ∨ (∃ g ∈ c.groupings.getD [], P (g.table, g.column))
        ∨ ∃ s ∈ c.sortings.getD [], P (s.table, s.column) := by
  simp only [printedColumns, List.mem_append, List.mem_map, List.mem_filter]
  grind

theorem owner_mem_columnRef {aliases : List (String × String)} {table column a : String} :
    .owner a ∈ columnRef aliases table column ↔ a ≠ "" ∧ aliasOr aliases table = a := by
  rw [columnRef]
  by_cases bare : aliasOr aliases table = ""
  · simp only [bare, if_true]
    constructor
    · intro h
      split at h <;> simp at h
    · rintro ⟨a_ne, rfl⟩
      exact absurd rfl a_ne
  · simp only [if_neg bare, List.mem_cons, Token.owner.injEq, List.not_mem_nil, or_false]
    constructor
    · rintro (rfl | h)
      · exact ⟨bare, rfl⟩
      · split at h <;> cases h
    · rintro ⟨-, rfl⟩
      exact Or.inl rfl

theorem declared_not_mem_columnRef (aliases : List (String × String)) (table column a : String) :
    .declared a ∉ columnRef aliases table column := by
  rw [columnRef]
  split <;> split <;> simp

/-- Where an alias stands in one level. -/
theorem mem_tokens_fragments {t : Token} (isAlias : t.isAlias = true) {d : Dialect}
    {c : Clauses String} :
    t ∈ tokens (fragments d c) ↔
      (∃ p ∈ printedColumns c, t ∈ columnRef c.tableAliases p.1 p.2)
        ∨ (c.source.aliasName ≠ "" ∧ t = .declared c.source.aliasName)
        ∨ ∃ g ∈ JoinGroup.ofJoins c.joins, t = .declared (targetAlias g.first)
          ∨ ∃ j ∈ g.members, t ∈ (joinCondition j).flatten := by
  rw [exists_mem_printedColumns]
  simp only [fragments, tokens_append, tokens_row, List.mem_append, mem_tokens_flatMap,
    mem_tokens_selectFragments isAlias, mem_selectedPhrase isAlias, mem_sourcePhrases isAlias,
    mem_tokens_joinFragments isAlias, mem_tokens_conditionFragments isAlias,
    mem_tokens_groupingFragments isAlias, mem_tokens_sortingFragments isAlias,
    not_mem_tokens_cteFragments isAlias, not_mem_tokens_unionFragments isAlias,
    not_mem_tokens_pagingFragments isAlias, or_false, false_or]
  grind

/-! ## Uses and declarations -/

/-- The aliases that the tables of a level get. -/
def declaredAliases {Q : Type} (c : Clauses Q) : List String :=
  (c.source.aliasName :: (JoinGroup.ofJoins c.joins).map fun g => targetAlias g.first).filter
    (· ≠ "")

section

variable {P Q : Type} (f : P → Q)

/-- Which columns are written does not depend on nested queries. -/
theorem printedColumns_map (c : Clauses P) : printedColumns (c.map f) = printedColumns c := by
  have fields : printsColumn ∘ Field.map f = printsColumn := by
    funext x
    simp [printsColumn, Field.map]
  have conditions : comparesColumn ∘ Condition.map f = comparesColumn := rfl
  rw [printedColumns, printedColumns, c.getD_conditions_map f]
  simp only [Clauses.map, List.filter_map, fields, conditions, List.map_map]
  rfl

theorem targetAlias_map (j : Join P) : targetAlias (j.map f) = targetAlias j := by
  rw [targetAlias, targetAlias]
  cases written : j.subquery <;> simp [Join.map, written]

/-- Which aliases tables get does not depend on nested queries. -/
theorem declaredAliases_map (c : Clauses P) : declaredAliases (c.map f) = declaredAliases c := by
  have joins : (c.map f).joins = c.joins.map (Join.map f) := rfl
  have first : ∀ g : JoinGroup P, targetAlias (g.map f).first = targetAlias g.first :=
    fun g => targetAlias_map f g.first
  rw [declaredAliases, declaredAliases, joins, JoinGroup.ofJoins_map, List.map_map]
  simp only [Function.comp_def, first]
  rfl

end

theorem owner_mem_joinCondition {Q : Type} {j : Join Q} {a : String} :
    .owner a ∈ (joinCondition j).flatten ↔
      given j.condition = none ∧ (a = j.sourceAlias ∨ a = j.targetAlias) := by
  rw [joinCondition]
  cases given j.condition with
  | some c => simp
  | none => simp

theorem declared_not_mem_joinCondition {Q : Type} (j : Join Q) (a : String) :
    .declared a ∉ (joinCondition j).flatten := by
  rw [joinCondition]
  cases given j.condition with
  | some c => simp
  | none => simp

/-- A column stands under an alias of one of the joins, or under that of its table. -/
theorem owner_mem_fragments {d : Dialect} {c : Clauses String} {a : String} :
    .owner a ∈ tokens (fragments d c) ↔
      (∃ j ∈ c.joins, given j.condition = none ∧ (a = j.sourceAlias ∨ a = j.targetAlias))
        ∨ a ≠ "" ∧ ∃ p ∈ printedColumns c, aliasOr c.tableAliases p.1 = a := by
  have joins : (∃ g ∈ JoinGroup.ofJoins c.joins, ∃ j ∈ g.members,
        given j.condition = none ∧ (a = j.sourceAlias ∨ a = j.targetAlias)) ↔
      ∃ j ∈ c.joins, given j.condition = none ∧ (a = j.sourceAlias ∨ a = j.targetAlias) := by
    constructor
    · rintro ⟨g, hg, j, hj, h⟩
      exact ⟨j, JoinGroup.exists_mem_ofJoins.mp ⟨g, hg, hj⟩, h⟩
    · rintro ⟨j, hj, h⟩
      obtain ⟨g, hg, hj⟩ := JoinGroup.exists_mem_ofJoins.mpr hj
      exact ⟨g, hg, j, hj, h⟩
  have columns : (∃ p ∈ printedColumns c, a ≠ "" ∧ aliasOr c.tableAliases p.1 = a) ↔
      a ≠ "" ∧ ∃ p ∈ printedColumns c, aliasOr c.tableAliases p.1 = a := by
    constructor
    · rintro ⟨p, hp, a_ne, h⟩
      exact ⟨a_ne, p, hp, h⟩
    · rintro ⟨a_ne, p, hp, h⟩
      exact ⟨p, hp, a_ne, h⟩
  rw [mem_tokens_fragments rfl, ← joins, ← columns]
  simp only [owner_mem_columnRef, owner_mem_joinCondition, reduceCtorEq, and_false, false_or]
  exact or_comm

theorem declared_mem_fragments {d : Dialect} {c : Clauses String} {a : String} (a_ne : a ≠ "") :
    .declared a ∈ tokens (fragments d c) ↔ a ∈ declaredAliases c := by
  rw [mem_tokens_fragments rfl, declaredAliases, List.mem_filter, List.mem_cons, List.mem_map]
  simp only [declared_not_mem_columnRef, declared_not_mem_joinCondition, Token.declared.injEq,
    and_false, exists_false, false_or, or_false, decide_eq_true_eq]
  constructor
  · rintro (⟨-, rfl⟩ | ⟨g, hg, rfl⟩)
    · exact ⟨Or.inl rfl, a_ne⟩
    · exact ⟨Or.inr ⟨g, hg, rfl⟩, a_ne⟩
  · rintro ⟨rfl | ⟨g, hg, rfl⟩, -⟩
    · exact Or.inl ⟨a_ne, rfl⟩
    · exact Or.inr ⟨g, hg, rfl⟩

end QueryWorkbench.Sql
