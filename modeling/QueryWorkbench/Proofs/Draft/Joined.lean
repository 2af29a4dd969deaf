/-
QueryWorkbench.Proofs.Draft.Joined — what bringing in tables changes.

Whatever the graph is like, the actions that bring in tables only take ids and add joins at the
end, and each of these joins has an alias that no table goes by at that moment. `Joined` says so of
two drafts; it holds of a path that is joined (`joined_joinHops`), of reaching for a table, of adding a
join and of joining by hand.
-/
import QueryWorkbench.Draft.Perform
import QueryWorkbench.Proofs.Query.FreshAlias
import QueryWorkbench.Proofs.Query.TableAlias

namespace QueryWorkbench.Draft

variable {w : Workbench} {d mid final : Draft}

/-- A draft that comes from another by taking ids and by adding joins under new aliases. -/
inductive Joined (d : Draft) : Draft → Prop
  | refl : Joined d d
  | advance {mid : Draft} : Joined d mid → Joined d mid.advance
  | push {mid : Draft} {j : Join Query} : Joined d mid →
      j.targetAlias ∉ mid.tableAliases.map (·.2) → Joined d (mid.pushJoin j)

theorem Joined.trans (first : Joined d mid) (second : Joined mid final) : Joined d final := by
  induction second with
  | refl => exact first
  | advance _ ih => exact ih.advance
  | push _ new ih => exact ih.push new

/-- Only the joins are other ones, and the old joins come first. -/
theorem Joined.clauses (h : Joined d final) :
    ∃ more, final.clauses = { d.clauses with joins := d.clauses.joins ++ more } := by
  induction h with
  | refl => exact ⟨[], by rw [List.append_nil]⟩
  | advance _ ih => exact ih
  | @push mid j _ _ ih =>
    obtain ⟨more, same⟩ := ih
    refine ⟨more ++ [j], ?_⟩
    rw [pushJoin, same, List.append_assoc]

theorem freshAlias_not_mem_tableAliases (d : Draft) (table : String) :
    d.freshAlias table ∉ d.tableAliases.map (·.2) :=
  freshAlias_not_mem table _

theorem joined_joinHops {hops : List Hop} :
    ∀ {source sourceAlias : String} {d : Draft},
    Joined d (joinHops source sourceAlias hops d).1 := by
  induction hops with
  | nil => exact .refl
  | cons h rest ih =>
    intro source sourceAlias d
    rw [joinHops]
    split
    · exact ih
    · refine Joined.trans (.push (.advance .refl) ?_) ih
      exact freshAlias_not_mem_tableAliases d h.target

theorem joined_joinPath (source : String) (p : JoinPath) : Joined d (d.joinPath source p).1 :=
  joined_joinHops

theorem joined_reach (table : String) : Joined d (d.reach w table).1 := by
  rw [reach]
  split
  · exact .refl
  · split
    · exact joined_joinPath _ _
    · exact .refl

theorem joined_addJoin (target : String) (source : Option String) :
    Joined d (d.addJoin w target source).1 := by
  rw [addJoin]
  split
  · exact .refl
  · split
    · exact .push (.advance .refl) (freshAlias_not_mem_tableAliases d _)
    · split
      · exact joined_joinPath _ _
      · exact .refl

/-! ## Joining by hand -/

/-- Joining by hand fails without columns and for an unknown kind; otherwise it adds one join of the
table, under the alias that is given or under a new one. -/
theorem addManualJoin_cases (w : Workbench) (d : Draft) (target source : String)
    (columns : List (String × String)) (kind : Json) (subquery : Option Query)
    (subqueryAlias : Option String) :
    (columns = [] ∧ d.addManualJoin w target source columns kind subquery subqueryAlias =
        d.failed .emptyManualJoin) ∨
      (∃ f, named JoinKind.name JoinKind.all .joinKind kind = .error f ∧
        d.addManualJoin w target source columns kind subquery subqueryAlias = d.advance.failed f) ∨
      ∃ k j, columns ≠ [] ∧ named JoinKind.name JoinKind.all .joinKind kind = .ok k ∧
        j.targetTable = target ∧
        j.targetAlias = (Sql.given subqueryAlias).getD (d.freshAlias target) ∧
        d.addManualJoin w target source columns kind subquery subqueryAlias =
          (d.advance.pushJoin j).answered (.join (some j)) := by
  cases columns with
  | nil => exact Or.inl ⟨rfl, rfl⟩
  | cons pair more =>
    unfold addManualJoin
    cases named JoinKind.name JoinKind.all .joinKind kind with
    | error f => exact Or.inr (Or.inl ⟨f, rfl, rfl⟩)
    | ok k => exact Or.inr (Or.inr ⟨k, _, List.cons_ne_nil _ _, rfl, rfl, rfl, rfl⟩)

theorem joined_addManualJoin (target source : String) (columns : List (String × String))
    (kind : Json) (subquery : Option Query) {subqueryAlias : Option String}
    (none : Sql.given subqueryAlias = none) :
    Joined d (d.addManualJoin w target source columns kind subquery subqueryAlias).draft := by
  rcases addManualJoin_cases w d target source columns kind subquery subqueryAlias with
    ⟨-, same⟩ | ⟨f, -, same⟩ | ⟨k, j, -, -, -, aliasName, same⟩ <;> rw [same]
  · exact .refl
  · exact .advance .refl
  · refine .push (.advance .refl) ?_
    rw [aliasName, none]
    exact freshAlias_not_mem_tableAliases d target

end QueryWorkbench.Draft
