/-
QueryWorkbench.Draft.ItemClause — the clauses of a level that are lists of items.

Removing, updating and reordering items is the same in each of these clauses. An `ItemClause` is
what differs: the id of an item, where the items are, and how changed items are put back. WHERE,
GROUP BY and ORDER BY may be absent, and putting items back makes them; the other clauses are always
there.
-/
import QueryWorkbench.Query.Basic

namespace QueryWorkbench

/-- A clause that is a list of items with ids. -/
structure ItemClause (α : Type) where
  id : α → String
  items? : Clauses Query → Option (List α)
  put : List α → Clauses Query → Clauses Query
  items?_put : ∀ items c, items? (put items c) = some items

namespace ItemClause

variable {α : Type} (clause : ItemClause α)

/-- The items of a clause, none of an absent one. -/
def items (c : Clauses Query) : List α := (clause.items? c).getD []

/-- The clauses with one more item at the end of one. -/
def push (a : α) (c : Clauses Query) : Clauses Query := clause.put (clause.items c ++ [a]) c

@[simp] theorem items_put (items : List α) (c : Clauses Query) :
    clause.items (clause.put items c) = items := by
  rw [ItemClause.items, clause.items?_put, Option.getD_some]

/-- The SELECT list. -/
def fields : ItemClause (Field Query) where
  id := Field.id
  items? c := some c.fields
  put fields c := { c with fields := fields }
  items?_put _ _ := rfl

@[simp] theorem items_fields (c : Clauses Query) : fields.items c = c.fields := rfl

/-- The joins. -/
def joins : ItemClause (Join Query) where
  id := Join.id
  items? c := some c.joins
  put joins c := { c with joins := joins }
  items?_put _ _ := rfl

/-- WHERE. -/
def conditions : ItemClause (Condition Query) where
  id := Condition.id
  items? c := c.conditions
  put conditions c := { c with conditions := some conditions }
  items?_put _ _ := rfl

/-- GROUP BY. -/
def groupings : ItemClause Grouping where
  id := Grouping.id
  items? c := c.groupings
  put groupings c := { c with groupings := some groupings }
  items?_put _ _ := rfl

/-- ORDER BY. -/
def sortings : ItemClause Sorting where
  id := Sorting.id
  items? c := c.sortings
  put sortings c := { c with sortings := some sortings }
  items?_put _ _ := rfl

/-- The named queries. -/
def ctes : ItemClause (Cte Query) where
  id := Cte.id
  items? c := some c.ctes
  put ctes c := { c with ctes := ctes }
  items?_put _ _ := rfl

/-- The unions. -/
def unions : ItemClause (Union Query) where
  id := Union.id
  items? c := some c.unions
  put unions c := { c with unions := unions }
  items?_put _ _ := rfl

end ItemClause

end QueryWorkbench
