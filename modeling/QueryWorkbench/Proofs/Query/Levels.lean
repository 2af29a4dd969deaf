/-
QueryWorkbench.Proofs.Query.Levels — statements about every level of a query.

`Clauses.nested` are the queries that the clauses of a level hold. What is so `Everywhere` in a
query is so of its outermost level and everywhere in the queries nested there; induction on
`Everywhere` goes from the inside out.
-/
import QueryWorkbench.Query.Fold

namespace QueryWorkbench

namespace Clauses

variable {P Q R : Type}

/-- The queries nested in a level. -/
def nested (c : Clauses Q) : List Q :=
  c.source.subquery.toList ++ c.fields.filterMap (·.subquery) ++ c.joins.filterMap (·.subquery)
    ++ (c.conditions.getD []).filterMap (·.subquery) ++ c.ctes.map (·.query)
    ++ c.unions.map (·.query)

/-- What holds of every query nested in a level, clause by clause. -/
structure EachNested (p : Q → Prop) (c : Clauses Q) : Prop where
  source : ∀ q ∈ c.source.subquery, p q
  fields : ∀ x ∈ c.fields, ∀ q ∈ x.subquery, p q
  joins : ∀ j ∈ c.joins, ∀ q ∈ j.subquery, p q
  conditions : ∀ x ∈ c.conditions.getD [], ∀ q ∈ x.subquery, p q
  ctes : ∀ x ∈ c.ctes, p x.query
  unions : ∀ u ∈ c.unions, p u.query

theorem forall_nested_iff {p : Q → Prop} {c : Clauses Q} :
    (∀ q ∈ c.nested, p q) ↔ c.EachNested p := by
  have all : (∀ q ∈ c.nested, p q) ↔ (∀ q ∈ c.source.subquery, p q) ∧
      (∀ x ∈ c.fields, ∀ q ∈ x.subquery, p q) ∧ (∀ j ∈ c.joins, ∀ q ∈ j.subquery, p q) ∧
      (∀ x ∈ c.conditions.getD [], ∀ q ∈ x.subquery, p q) ∧ (∀ x ∈ c.ctes, p x.query) ∧
      ∀ u ∈ c.unions, p u.query := by
    simp only [nested, List.mem_append, or_imp, forall_and, and_assoc, List.mem_filterMap,
      List.mem_map, Option.mem_toList, forall_exists_index, and_imp, Option.mem_def,
      forall_apply_eq_imp_iff₂]
    grind
  rw [all]
  constructor
  · rintro ⟨source, fields, joins, conditions, ctes, unions⟩
    exact ⟨source, fields, joins, conditions, ctes, unions⟩
  · intro h
    exact ⟨h.source, h.fields, h.joins, h.conditions, h.ctes, h.unions⟩

/-- Nested queries changed twice. -/
theorem map_map (f : P → Q) (g : Q → R) (c : Clauses P) : (c.map f).map g = c.map (g ∘ f) := by
  cases written : c.conditions <;>
    simp [Clauses.map, written, Source.map, Field.map, Join.map, Condition.map, Cte.map, Union.map,
      Function.comp_def]

end Clauses

/-- A statement that holds of every level of a query. -/
inductive Query.Everywhere (holds : Clauses Query → Prop) : Query → Prop
  | mk {c : Clauses Query} : holds c → (∀ q ∈ c.nested, Everywhere holds q) →
      Everywhere holds (.mk c)

end QueryWorkbench
