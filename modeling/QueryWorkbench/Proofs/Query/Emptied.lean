/-
QueryWorkbench.Proofs.Query.Emptied — queries without the texts that conditions compare with.

`Query.emptied` takes the texts out of the values of conditions, at every level. EXISTS copies its
value into the SQL, so that one is kept. Two queries that are the same once emptied differ in such
texts only.
-/
import QueryWorkbench.Proofs.Query.Levels

namespace QueryWorkbench

namespace Json

mutual

/-- A value without the content of its texts. An object is written as text and counts as one. -/
def emptied : Json → Json
  | null => null
  | bool b => bool b
  | int n => int n
  | num x => num x
  | str _ => str ""
  | arr items => arr (emptiedItems items)
  | obj _ => str ""

/-- The items of a list, one by one. -/
def emptiedItems : List Json → List Json
  | [] => []
  | v :: rest => emptied v :: emptiedItems rest

end

/-- Only a list is emptied to a list. -/
theorem exists_of_emptied_eq_arr {v : Json} {items : List Json} (h : v.emptied = arr items) :
    ∃ others, v = arr others ∧ emptiedItems others = items := by
  cases v with
  | arr others =>
    rw [emptied] at h
    exact ⟨others, rfl, arr.inj h⟩
  | _ => cases h

end Json

variable {P Q : Type}

/-- Whether a condition asks for rows of a nested query. -/
def Condition.asksForRows (c : Condition Q) : Prop :=
  c.operator = .hasRows ∨ c.operator = .hasNoRows

instance (c : Condition Q) : Decidable c.asksForRows := inferInstanceAs (Decidable (_ ∨ _))

/-- A condition with its value emptied, unless the value is copied. -/
def Condition.emptied (c : Condition Q) : Condition Q :=
  { c with value := if c.asksForRows then c.value else c.value.emptied }

theorem Condition.emptied_of_asksForRows {c : Condition Q} (h : c.asksForRows) : c.emptied = c := by
  rw [emptied, if_pos h]

theorem Condition.emptied_of_not_asksForRows {c : Condition Q} (h : ¬ c.asksForRows) :
    c.emptied = { c with value := c.value.emptied } := by
  rw [emptied, if_neg h]

/-- A level with its conditions emptied. -/
def Clauses.emptied (c : Clauses Q) : Clauses Q :=
  { c with conditions := c.conditions.map (List.map Condition.emptied) }

/-- A query with the conditions of all levels emptied. -/
def Query.emptied (q : Query) : Query := q.fold fun c => .mk c.emptied

theorem Clauses.getD_conditions_emptied (c : Clauses Q) :
    c.emptied.conditions.getD [] = (c.conditions.getD []).map Condition.emptied := by
  cases written : c.conditions <;> simp [Clauses.emptied, written]

theorem Clauses.emptied_map (f : P → Q) (c : Clauses P) :
    (c.map f).emptied = c.emptied.map f := by
  have each (x : Condition P) : (x.map f).emptied = x.emptied.map f := rfl
  cases written : c.conditions <;> simp [Clauses.emptied, Clauses.map, written, each]

theorem Query.emptied_mk (c : Clauses Query) :
    (mk c).emptied = mk (c.map Query.emptied).emptied := by
  rw [emptied, fold_mk]
  rfl

end QueryWorkbench
