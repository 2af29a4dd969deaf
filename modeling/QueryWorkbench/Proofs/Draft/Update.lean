/-
QueryWorkbench.Proofs.Draft.Update — what an update does to the items of a clause.

An update that succeeds replaces one item in place (`exists_of_updated`). So the update of any
clause comes to one of three things, and the arms of the actions that update need no case split of
their own (`update_cases`). For a field that selects no nested query, the document that is read again
after a renaming is that of the field itself with the other alias (`read_renamed`).
-/
import QueryWorkbench.Draft.Perform

namespace QueryWorkbench

namespace Document

theorem nullable_null {α : Type} (read : Reader α) : nullable read .null = .valid none := rfl

theorem nullable_ofOption (s : Option String) :
    nullable readText (Json.ofOption s) = .valid s := by
  cases s <;> rfl

/-- A value is read back from its name. -/
theorem readChoice_aggregate (a : Aggregate) :
    readChoice Aggregate.name Aggregate.all (.str a.name) = .valid a := by
  cases a <;> rfl

theorem nullable_aggregate (a : Option Aggregate) :
    nullable (readChoice Aggregate.name Aggregate.all) (Json.ofOption (a.map Aggregate.name)) =
      .valid a := by
  cases a with
  | none => rfl
  | some a =>
    have some_case : nullable (readChoice Aggregate.name Aggregate.all) (.str a.name) =
        some <$> readChoice Aggregate.name Aggregate.all (.str a.name) := rfl
    rw [Option.map_some, Json.ofOption, Option.map_some, Option.getD_some, some_case,
      readChoice_aggregate, Validated.map_valid]

end Document

namespace Draft

open Document (Members Reader)

/-- An update that succeeds reads the first item with the id again and puts it in its place. -/
theorem exists_of_updated {α : Type} {id : α → String} {write : α → Json} {read : Reader α}
    {wanted : String} {updates : Members} {b : α} :
    ∀ {items changed : List α}, updated id write read wanted updates items = .ok (some (b, changed)) →
    ∃ before a after, items = before ++ a :: after ∧ changed = before ++ b :: after ∧
      id a = wanted ∧ (∀ x ∈ before, id x ≠ wanted) ∧
      read (overlaid updates (write a)) = .valid b := by
  intro items
  induction items with
  | nil => intro changed h; simp [updated] at h
  | cons a rest ih =>
    intro changed h
    rw [updated] at h
    split at h
    · rename_i here
      split at h
      · rename_i b' read_eq
        obtain ⟨rfl, rfl⟩ : b' = b ∧ b' :: rest = changed := by simpa using h
        exact ⟨[], a, rest, rfl, rfl, here, by simp, read_eq⟩
      · simp at h
    · rename_i elsewhere
      cases later : updated id write read wanted updates rest with
      | error f => simp [later, Except.map] at h
      | ok found =>
        cases found with
        | none => simp [later, Except.map] at h
        | some pair =>
          obtain ⟨b', changed'⟩ := pair
          obtain ⟨rfl, rfl⟩ : b' = b ∧ a :: changed' = changed := by
            simpa [later, Except.map] using h
          obtain ⟨before, c, after, rfl, rfl, hc, first, read_eq⟩ := ih later
          refine ⟨a :: before, c, after, rfl, rfl, hc, ?_, read_eq⟩
          intro x hx
          rcases List.mem_cons.mp hx with rfl | hx
          · exact elsewhere
          · exact first x hx

/-- An update of a clause fails and changes nothing, finds no item with the id, or puts the first
such item, read again under the update, in its place. -/
theorem update_cases {α : Type} (d : Draft) (clause : ItemClause α) (write : α → Json)
    (read : Reader α) (answer : Option α → Answer) (wanted : String) (updates : Members) :
    (∃ f, d.update clause write read answer wanted updates = d.failed f) ∨
    d.update clause write read answer wanted updates = d.answered (answer none) ∨
    ∃ before a after b, clause.items d.clauses = before ++ a :: after ∧ clause.id a = wanted ∧
      (∀ x ∈ before, clause.id x ≠ wanted) ∧ read (overlaid updates (write a)) = .valid b ∧
      d.update clause write read answer wanted updates =
        (d.withClauses (clause.put (before ++ b :: after))).answered (answer (some b)) := by
  rw [update]
  split
  · exact .inr (.inl rfl)
  · rename_i b changed done
    obtain ⟨before, a, after, split, rfl, here, first, read_eq⟩ := exists_of_updated done
    exact .inr (.inr ⟨before, a, after, b, split, here, first, read_eq, rfl⟩)
  · exact .inl ⟨_, rfl⟩

/-- A field without a nested query is read back with its new alias. -/
theorem read_renamed {x : Field Query} (flat : x.subquery = none) (aliasName : Option String) :
    Query.readField Query.read (overlaid [("alias", .ofOption aliasName)] (fieldDocument x)) =
      .valid { x with aliasName := aliasName } := by
  obtain ⟨id, table, column, old, order, expression, aggregate, subquery⟩ := x
  obtain rfl : subquery = none := flat
  simp [fieldDocument, Field.map, Query.writeField, overlaid, Query.readField, Document.readObject,
    Assoc.putAll, Assoc.put, Document.textOrEmpty, Document.optionalText, Document.optional,
    Document.FieldName.find?, Document.FieldName.spelled, Assoc.get?, Query.Keys.id,
    Query.Keys.tableId, Query.Keys.column, Query.Keys.aliasName, Query.Keys.order,
    Query.Keys.expression, Query.Keys.aggregate, Query.Keys.subquery, Document.readText,
    Document.readInteger, Document.nullable_ofOption, Document.nullable_aggregate,
    Document.nullable_null]

end Draft

end QueryWorkbench
