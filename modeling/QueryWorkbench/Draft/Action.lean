/-
QueryWorkbench.Draft.Action — what can be done to a draft, and the answers.
-/
import QueryWorkbench.Document.Reader
import QueryWorkbench.Query.Basic

namespace QueryWorkbench

/-- An item for a new order: one that is in the clause now, by its id, or a new one. -/
inductive Pick (α : Type) where
  | known (id : String)
  | fresh (item : α)

/-- The items that are picked. The first item with an id is meant, and an id that no item has is
passed over. -/
def Pick.resolve {α : Type} (id : α → String) (current : List α) (picks : List (Pick α)) : List α :=
  picks.filterMap fun
    | .known wanted => current.find? (id · == wanted)
    | .fresh item => some item

/-- The actions on a draft. Names of kinds and directions, and the parts of limits and named
queries, are given as they come and checked by the action. -/
inductive Action where
  | setBaseTable (table : String)
  | setSourceQuery (query : Query) (aliasName : String)
  | clearSourceQuery
  | addColumn (table column : String)
  | addExpression (expression : String) (aliasName : Option String)
  | removeField (id : String)
  | renameField (id : String) (aliasName : Option String)
  | reorderFields (picks : List (Pick (Field Query)))
  | addJoin (target : String) (source : Option String)
  | addManualJoin (target source : String) (columns : List (String × String)) (kind : Json)
      (subquery : Option Query) (subqueryAlias : Option String)
  | updateJoin (id : String) (updates : Document.Members)
  | removeJoin (id : String)
  | addCondition (condition : Condition Query)
  | updateCondition (id : String) (updates : Document.Members)
  | removeCondition (id : String)
  | reorderConditions (picks : List (Pick (Condition Query)))
  | addGrouping (table column : String)
  | removeGrouping (id : String)
  | reorderGroupings (picks : List (Pick Grouping))
  | addSorting (table column : String) (direction : Json)
  | updateSorting (id : String) (updates : Document.Members)
  | removeSorting (id : String)
  | reorderSortings (picks : List (Pick Sorting))
  | addCte (name : Json) (query : Query) (columns recursive : Json)
  | updateCte (id : String) (updates : Document.Members)
  | removeCte (id : String)
  | addUnion (query : Query) (kind : Json)
  | removeUnion (id : String)
  | setLimit (count offset : Json)
  | reset
  | load (query : Query)

/-- What an action answers. -/
inductive Answer where
  | done
  | removed (found : Bool)
  | field (item : Option (Field Query))
  | join (item : Option (Join Query))
  | joins (items : List (Join Query))
  | condition (item : Option (Condition Query))
  | grouping (item : Option Grouping)
  | sorting (item : Option Sorting)
  | cte (item : Option (Cte Query))
  | union (item : Union Query)

end QueryWorkbench
