/-
QueryWorkbench.Draft.Perform — actions carried out on drafts.

`perform` gives the draft afterwards, the answer or the failure, and the warnings. The draft
afterwards is given in case of a failure too: an id that was taken stays taken, and ORDER BY may
be there without entries.
-/
import QueryWorkbench.Draft.Action
import QueryWorkbench.Draft.ItemClause
import QueryWorkbench.Draft.Join
import QueryWorkbench.Json.Display
import QueryWorkbench.Query.Reader
import QueryWorkbench.Query.Writer

namespace QueryWorkbench

open Document (Members Reader)

/-- The draft after an action, and what came of it. -/
structure Performed where
  draft : Draft
  outcome : Outcome Answer

namespace Draft

/-! ## Items and their documents -/

/-- An action that answers. -/
def answered (d : Draft) (a : Answer) : Performed := ⟨d, .ok a⟩

/-- An action that fails. -/
def failed (d : Draft) (f : Failure) : Performed := ⟨d, .fail f⟩

/-- Changes the clauses. -/
def withClauses (d : Draft) (f : Clauses Query → Clauses Query) : Draft :=
  { d with clauses := f d.clauses }

/-- Items without those that have an id, and whether there were any. -/
def without {α : Type} (id : α → String) (items : List α) (unwanted : String) : List α × Bool :=
  let remaining := items.filter fun a => id a ≠ unwanted
  (remaining, remaining.length ≠ items.length)

/-- Items numbered by their position. -/
def renumbered {α : Type} (number : α → Int → α) (items : List α) : List α :=
  items.mapIdx fun i a => number a i

/-- A document with members laid over its own. -/
def overlaid (updates : Members) : Json → Json
  | .obj members => .obj (Assoc.putAll members updates)
  | other => other

/-- Replaces the first item with an id by the one that its document reads as with the updates laid
over it. -/
def updated {α : Type} (id : α → String) (write : α → Json) (read : Reader α) (wanted : String)
    (updates : Members) : List α → Except Failure (Option (α × List α))
  | [] => .ok none
  | a :: rest =>
    if id a = wanted then
      match read (overlaid updates (write a)) with
      | .valid b => .ok (some (b, b :: rest))
      | .invalid issues => .error (.document issues)
    else
      (updated id write read wanted updates rest).map (·.map fun (b, items) => (b, a :: items))

/-- A kind, direction or union by its name. -/
def named {α : Type} (name : α → String) (all : List α) (family : Family) (given : Json) :
    Except Failure α :=
  match Document.readChoice name all given with
  | .valid a => .ok a
  | .invalid _ => .error (.unknownName given.display family)

/-- The document of an item, its nested queries written too. -/
def fieldDocument (x : Field Query) : Json :=
  Query.writeField .snake (x.map (Query.write .snake))

/-- The document of a join. -/
def joinDocument (j : Join Query) : Json := Query.writeJoin .snake (j.map (Query.write .snake))

/-- The document of a condition. -/
def conditionDocument (c : Condition Query) : Json :=
  Query.writeCondition .snake (c.map (Query.write .snake))

/-- The document of a named query. -/
def cteDocument (c : Cte Query) : Json := Query.writeCte .snake (c.map (Query.write .snake))

variable (w : Workbench) (d : Draft)

/-! ## Actions on the items of any clause -/

section Items

variable {α : Type} (clause : ItemClause α)

/-- Removes the items of a clause with an id. -/
def remove (unwanted : String) : Performed :=
  match clause.items? d.clauses with
  | none => d.answered (.removed false)
  | some items =>
    let (remaining, found) := without clause.id items unwanted
    (d.withClauses (clause.put remaining)).answered (.removed found)

/-- Updates the first item of a clause with an id. -/
def update (write : α → Json) (read : Reader α) (answer : Option α → Answer) (wanted : String)
    (updates : Members) : Performed :=
  match updated clause.id write read wanted updates (clause.items d.clauses) with
  | .ok none => d.answered (answer none)
  | .ok (some (a, items)) => (d.withClauses (clause.put items)).answered (answer (some a))
  | .error f => d.failed f

/-- Puts the items of a clause into a new order. -/
def reorder (number : α → Int → α) (picks : List (Pick α)) : Performed :=
  let items := renumbered number (Pick.resolve clause.id (clause.items d.clauses) picks)
  (d.withClauses (clause.put items)).answered .done

end Items

/-! ## Actions that add -/

/-- Selects a column, unless it is selected already, and brings its table into scope. -/
def addColumn (table column : String) : Performed :=
  if d.clauses.fields.any fun x => x.table == table && x.column == column then
    d.answered (.field none)
  else
    let (reached, warnings) := d.reach w table
    let x : Field Query :=
      { id := reached.newId "field", table := table, column := column,
        order := d.clauses.fields.length }
    ⟨reached.advance.withClauses (ItemClause.fields.push x),
      ⟨.ok (.field (some x)), warnings⟩⟩

/-- Selects an expression. -/
def addExpression (expression : String) (aliasName : Option String) : Performed :=
  let x : Field Query :=
    { id := d.newId "expr", expression := some expression, aliasName := aliasName,
      order := d.clauses.fields.length }
  (d.advance.withClauses (ItemClause.fields.push x)).answered (.field (some x))

/-- Gives the first field with an id another alias, or none. -/
def renameField (id : String) (aliasName : Option String) : Performed :=
  d.update .fields fieldDocument (Query.readField Query.read) .field id
    [("alias", .ofOption (Sql.given aliasName))]

/-- The condition of several pairs of columns. -/
def pairsCondition (sourceAlias targetAlias : String) (columns : List (String × String)) : String :=
  " AND ".intercalate (columns.map fun (a, b) =>
    sourceAlias ++ "." ++ w.dialect.quote a ++ " = " ++ targetAlias ++ "." ++ w.dialect.quote b)

/-- Joins a table by given pairs of columns. -/
def addManualJoin (target source : String) (columns : List (String × String)) (kind : Json)
    (subquery : Option Query) (subqueryAlias : Option String) : Performed :=
  match columns with
  | [] => d.failed .emptyManualJoin
  | (sourceColumn, targetColumn) :: more =>
    let sourceAlias :=
      ((Assoc.get? source d.tableAliases).filter (· ≠ "")).getD (d.freshAlias source)
    let targetAlias := (Sql.given subqueryAlias).getD (d.freshAlias target)
    let condition := if more.isEmpty then none
      else some (pairsCondition w sourceAlias targetAlias columns)
    match named JoinKind.name JoinKind.all .joinKind kind with
    | .error f => d.advance.failed f
    | .ok kind =>
      let j : Join Query :=
        { id := d.newId "join", kind := kind, sourceTable := source, sourceAlias := sourceAlias,
          sourceColumn := sourceColumn, targetTable := target, targetAlias := targetAlias,
          targetColumn := targetColumn, condition := condition, subquery := subquery,
          subqueryAlias := subqueryAlias }
      (d.advance.pushJoin j).answered (.join (some j))

/-- Adds a condition at the end; one without an id gets a new one. -/
def addCondition (condition : Condition Query) : Performed :=
  let (id, next) := if condition.id = "" then (d.newId "where", d.advance) else (condition.id, d)
  let added :=
    { condition with id := id, order := (ItemClause.conditions.items d.clauses).length }
  (next.withClauses (ItemClause.conditions.push added)).answered (.condition (some added))

/-- Groups by a column, unless it is grouped by already. -/
def addGrouping (table column : String) : Performed :=
  let groupings := ItemClause.groupings.items d.clauses
  if groupings.any fun g => g.table == table && g.column == column then
    d.answered (.grouping none)
  else
    let g : Grouping :=
      { id := d.newId "groupby", table := table, column := column, order := groupings.length }
    (d.advance.withClauses (ItemClause.groupings.push g)).answered (.grouping (some g))

/-- Sorts by a column, unless it is sorted by already. -/
def addSorting (table column : String) (direction : Json) : Performed :=
  let sortings := ItemClause.sortings.items d.clauses
  let ready := d.withClauses (ItemClause.sortings.put sortings)
  if sortings.any fun s => s.table == table && s.column == column then
    ready.answered (.sorting none)
  else
    match named Direction.name Direction.all .direction direction with
    | .error f => ready.advance.failed f
    | .ok direction =>
      let s : Sorting :=
        { id := d.newId "orderby", table := table, column := column, direction := direction,
          order := sortings.length }
      (ready.advance.withClauses (ItemClause.sortings.push s)).answered (.sorting (some s))

/-- The columns of a named query as a list. They may be given as any sequence: a text stands for
its characters, an object for its keys. -/
def columnList : Json → Json
  | .str s => .ofStrings (s.toList.map fun c => String.ofList [c])
  | .obj members => .ofStrings (members.map (·.1))
  | v => v

/-- Adds a named query at the end. -/
def addCte (name : Json) (query : Query) (columns recursive : Json) : Performed :=
  let id := d.newId "cte"
  let members : Members :=
    [("name", name), ("columns", columnList columns), ("recursive", recursive)]
  let read : Document.Validated (Cte Query) :=
    Cte.mk id <$> Document.required Query.Keys.name Document.readText members
      <*> pure query
      <*> Document.optional Query.Keys.columns
        (Document.nullable (Document.readList Document.readText)) none members
      <*> Document.optional Query.Keys.recursive Document.readTruth false members
  match read with
  | .invalid issues => d.advance.failed (.document issues)
  | .valid cte =>
    (d.advance.withClauses (ItemClause.ctes.push cte)).answered (.cte (some cte))

/-- Adds a union at the end. -/
def addUnion (query : Query) (kind : Json) : Performed :=
  match named UnionKind.name UnionKind.every .unionKind kind with
  | .error f => d.advance.failed f
  | .ok kind =>
    let u : Union Query :=
      { id := d.newId "union", kind := kind, query := query, order := d.clauses.unions.length }
    (d.advance.withClauses (ItemClause.unions.push u)).answered (.union u)

/-- Sets the row limit; a limit of nothing or zero takes it away. -/
def setLimit (count offset : Json) : Performed :=
  if count.isTruthy then
    match Query.readLimitMembers [("limit", count), ("offset", offset)] with
    | .valid l => (d.withClauses fun c => { c with limit := some l }).answered .done
    | .invalid issues => d.failed (.document issues)
  else (d.withClauses fun c => { c with limit := none }).answered .done

/-! ## All actions -/

/-- Carries out an action. -/
def perform : Action → Performed
  | .setBaseTable table =>
    let source : Source Query := { table := table, aliasName := QueryWorkbench.freshAlias table [] }
    (d.withClauses fun _ => { source := source }).answered .done
  | .setSourceQuery query aliasName =>
    let changed := { d.clauses.source with subquery := some query, aliasName := aliasName }
    (d.withClauses fun c => { c with source := changed }).answered .done
  | .clearSourceQuery =>
    (d.withClauses fun c => { c with source := { c.source with subquery := none } }).answered .done
  | .addColumn table column => d.addColumn w table column
  | .addExpression expression aliasName => d.addExpression expression aliasName
  | .removeField id => d.remove .fields id
  | .renameField id aliasName => d.renameField id aliasName
  | .reorderFields picks => d.reorder .fields (fun x i => { x with order := i }) picks
  | .addJoin target source =>
    let (final, made, warnings) := d.addJoin w target source
    ⟨final, ⟨.ok (.joins made), warnings⟩⟩
  | .addManualJoin target source columns kind subquery subqueryAlias =>
    d.addManualJoin w target source columns kind subquery subqueryAlias
  | .updateJoin id updates =>
    d.update .joins joinDocument (Query.readJoin Query.read) .join id updates
  | .removeJoin id => d.remove .joins id
  | .addCondition condition => d.addCondition condition
  | .updateCondition id updates =>
    d.update .conditions conditionDocument (Query.readCondition Query.read) .condition id updates
  | .removeCondition id => d.remove .conditions id
  | .reorderConditions picks => d.reorder .conditions (fun x i => { x with order := i }) picks
  | .addGrouping table column => d.addGrouping table column
  | .removeGrouping id => d.remove .groupings id
  | .reorderGroupings picks => d.reorder .groupings (fun x i => { x with order := i }) picks
  | .addSorting table column direction => d.addSorting table column direction
  | .updateSorting id updates =>
    d.update .sortings (Query.writeSorting .snake) Query.readSorting .sorting id updates
  | .removeSorting id => d.remove .sortings id
  | .reorderSortings picks => d.reorder .sortings (fun x i => { x with order := i }) picks
  | .addCte name query columns recursive => d.addCte name query columns recursive
  | .updateCte id updates => d.update .ctes cteDocument (Query.readCte Query.read) .cte id updates
  | .removeCte id => d.remove .ctes id
  | .addUnion query kind => d.addUnion query kind
  | .removeUnion id => d.remove .unions id
  | .setLimit count offset => d.setLimit count offset
  | .reset => (d.withClauses fun _ => {}).answered .done
  | .load query => (d.withClauses fun _ => query.clauses).answered .done

end Draft

end QueryWorkbench
