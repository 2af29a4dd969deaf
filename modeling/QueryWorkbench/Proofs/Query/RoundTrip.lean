/-
QueryWorkbench.Proofs.Query.RoundTrip — query documents are read back.

A query written as a document, at any depth and with any values in its conditions, is read back as
it was. Each key of the document may have its short or its long spelling: a query is read back from
every mixture of the two documents that it is written as (`read_write`).

## How the proof goes

`ReadsBack n r first second a` says of a reader that it reads every mixture of two documents as the
same value, as long as the mixture is at most `n` levels deep. It is proved for each kind of value,
for each kind of item from the values of its fields, and for a level from its clauses
(`readsBack_clauses`). An item takes the reader of nested queries as a parameter and asks of it no
more than that these are read back, so that only `readsBack_readWithin` is recursive: the reader of
`n + 1` levels reads nested queries by that of `n` levels.

## Why the depth is in the statement

A reader follows a document only so far, and how far is computed from the document itself
(`Json.depth`). The bound is therefore the depth of the very mixture that is read, and nothing is
left of it in the theorem.

There are no hypotheses on the query. Its texts may be empty and its numbers negative, but a limit
and an offset are natural numbers because a query cannot have others.
-/
import QueryWorkbench.Proofs.Document.Mixture
import QueryWorkbench.Query.Reader
import QueryWorkbench.Query.Writer

namespace QueryWorkbench.Query

open Document Json

/-- A field that has the same value in both documents. -/
abbrev same (f : FieldName) (v : Json) : FieldName × Json × Json := (f, v, v)

theorem write_mk (style : KeyStyle) (c : Clauses Query) :
    write style (.mk c) = writeClauses style (c.map (write style)) := fold_mk _ c

theorem write_ne_null (style : KeyStyle) (q : Query) : write style q ≠ .null := by
  cases q with
  | mk c =>
    rw [write_mk]
    exact nofun

section

variable {n : Nat} {r : Reader Query} {s t : KeyStyle}

/-! ## Values of fields -/

theorem readsBack_any (v : Json) : ReadsBack n readAny v v v := readsBack_self rfl

theorem readsBack_integer (k : Int) : ReadsBack n readInteger (.int k) (.int k) k :=
  readsBack_self rfl

theorem readsBack_truth (b : Bool) : ReadsBack n readTruth (.bool b) (.bool b) b :=
  readsBack_self rfl

theorem readsBack_count (k : Nat) : ReadsBack n (readBounded 0 none) (.int k) (.int k) k := by
  have nonneg : ¬ (k : Int) < 0 := by omega
  exact readsBack_self (by simp [readBounded, readInteger, nonneg])

theorem readsBack_optionalCount (k : Option Nat) :
    ReadsBack n (nullable (readBounded 0 none)) (orNull (fun k : Nat => .int k) k)
      (orNull (fun k : Nat => .int k) k) k := by
  cases k with
  | none => exact readsBack_null
  | some k => exact (readsBack_count k).nullable nofun

theorem readsBack_columns (columns : Option (List String)) :
    ReadsBack n (nullable (readList readText)) (orNull Json.ofStrings columns)
      (orNull Json.ofStrings columns) columns := by
  cases columns with
  | none => exact readsBack_null
  | some l => exact (readsBack_list l fun s _ => readsBack_text s).nullable nofun

theorem readsBack_joinKind (k : JoinKind) :
    ReadsBack n (readChoice JoinKind.name JoinKind.all) (.str k.name) (.str k.name) k :=
  readsBack_choice (by decide) (by cases k <;> decide)

theorem readsBack_operator (o : Operator) :
    ReadsBack n (readChoice Operator.name Operator.all) (.str o.name) (.str o.name) o :=
  readsBack_choice (by decide) (by cases o <;> decide)

theorem readsBack_direction (d : Direction) :
    ReadsBack n (readChoice Direction.name Direction.all) (.str d.name) (.str d.name) d :=
  readsBack_choice (by decide) (by cases d <;> decide)

theorem readsBack_unionKind (k : UnionKind) :
    ReadsBack n (readChoice UnionKind.name UnionKind.every) (.str k.name) (.str k.name) k :=
  readsBack_choice (by decide) (by cases k <;> decide)

theorem readsBack_connective (c : Option Connective) :
    ReadsBack n (nullable (readChoice Connective.name Connective.all))
      (.ofOption (c.map Connective.name)) (.ofOption (c.map Connective.name)) c :=
  readsBack_optionalChoice (by decide) fun c _ => by cases c <;> decide

theorem readsBack_aggregate (a : Option Aggregate) :
    ReadsBack n (nullable (readChoice Aggregate.name Aggregate.all))
      (.ofOption (a.map Aggregate.name)) (.ofOption (a.map Aggregate.name)) a :=
  readsBack_optionalChoice (by decide) fun a _ => by cases a <;> decide

/-! ## Items without nested queries -/

theorem readsBack_grouping (g : Grouping) :
    ReadsBack n readGrouping (writeGrouping s g) (writeGrouping t g) g := by
  refine readsBack_object [same Keys.id (.str g.id), same Keys.tableId (.str g.table),
    same Keys.column (.str g.column), same Keys.order (.int g.order)]
    (Nat.le_succ n) (by simp only [List.map]; decide) ?_
  intro members holds
  simp only [List.forall_mem_cons] at holds
  obtain ⟨id, table, column, order, -⟩ := holds
  rw [textOrEmpty, id.optional (readsBack_text _), table.required (readsBack_text _),
    column.required (readsBack_text _), order.optional (readsBack_integer _)]
  rfl

theorem readsBack_sorting (x : Sorting) :
    ReadsBack n readSorting (writeSorting s x) (writeSorting t x) x := by
  refine readsBack_object [same Keys.id (.str x.id), same Keys.tableId (.str x.table),
    same Keys.column (.str x.column), same Keys.direction (.str x.direction.name),
    same Keys.order (.int x.order)]
    (Nat.le_succ n) (by simp only [List.map]; decide) ?_
  intro members holds
  simp only [List.forall_mem_cons] at holds
  obtain ⟨id, table, column, direction, order, -⟩ := holds
  rw [textOrEmpty, id.optional (readsBack_text _), table.required (readsBack_text _),
    column.required (readsBack_text _), direction.optional (readsBack_direction _),
    order.optional (readsBack_integer _)]
  rfl

theorem readsBack_limit (l : Limit) : ReadsBack n readLimit (writeLimit s l) (writeLimit t l) l := by
  refine readsBack_object [same Keys.limit (.int l.count),
    same Keys.offset (orNull (fun k : Nat => .int k) l.offset)]
    (Nat.le_succ n) (by simp only [List.map]; decide) ?_
  intro members holds
  simp only [List.forall_mem_cons] at holds
  obtain ⟨limit, offset, -⟩ := holds
  rw [readLimitMembers, limit.required (readsBack_count _),
    offset.optional (readsBack_optionalCount _)]
  rfl

/-! ## Items with nested queries -/

section

variable (sub : ∀ q, ReadsBack n r (write s q) (write t q) q)
include sub

/-- What stands for an optional nested query is read back. -/
theorem readsBack_subquery (o : Option Query) :
    ReadsBack n (nullable r) ((o.map (write s)).getD .null) ((o.map (write t)).getD .null) o := by
  cases o with
  | none => exact readsBack_null
  | some q => exact (sub q).nullable (write_ne_null s q)

theorem readsBack_source (x : Source Query) : ReadsBack n (readSource r)
    (writeSource s (x.map (write s))) (writeSource t (x.map (write t))) x := by
  refine readsBack_object [same Keys.table (.str x.table),
    same Keys.aliasName (.str x.aliasName), same Keys.schema (.ofOption x.schema),
    (Keys.subquery, (x.subquery.map (write s)).getD .null, (x.subquery.map (write t)).getD .null)]
    (Nat.le_succ n) (by simp only [List.map]; decide) ?_
  intro members holds
  simp only [List.forall_mem_cons] at holds
  obtain ⟨table, aliasName, schema, subquery, -⟩ := holds
  rw [textOrEmpty, textOrEmpty, optionalText, table.optional (readsBack_text _),
    aliasName.optional (readsBack_text _), schema.optional (readsBack_optionalText _),
    subquery.optional (readsBack_subquery sub _)]
  rfl

theorem readsBack_field (x : Field Query) : ReadsBack n (readField r)
    (writeField s (x.map (write s))) (writeField t (x.map (write t))) x := by
  refine readsBack_object [same Keys.id (.str x.id), same Keys.tableId (.str x.table),
    same Keys.column (.str x.column), same Keys.aliasName (.ofOption x.aliasName),
    same Keys.order (.int x.order), same Keys.expression (.ofOption x.expression),
    same Keys.aggregate (.ofOption (x.aggregate.map Aggregate.name)),
    (Keys.subquery, (x.subquery.map (write s)).getD .null, (x.subquery.map (write t)).getD .null)]
    (Nat.le_succ n) (by simp only [List.map]; decide) ?_
  intro members holds
  simp only [List.forall_mem_cons] at holds
  obtain ⟨id, table, column, aliasName, order, expression, aggregate, subquery, -⟩ := holds
  simp only [textOrEmpty, optionalText]
  rw [id.optional (readsBack_text _), table.optional (readsBack_text _),
    column.optional (readsBack_text _), aliasName.optional (readsBack_optionalText _),
    order.optional (readsBack_integer _), expression.optional (readsBack_optionalText _),
    aggregate.optional (readsBack_aggregate _), subquery.optional (readsBack_subquery sub _)]
  rfl

theorem readsBack_join (j : Join Query) : ReadsBack n (readJoin r)
    (writeJoin s (j.map (write s))) (writeJoin t (j.map (write t))) j := by
  refine readsBack_object [same Keys.id (.str j.id), same Keys.kind (.str j.kind.name),
    same Keys.sourceTable (.str j.sourceTable), same Keys.sourceAlias (.str j.sourceAlias),
    same Keys.sourceColumn (.str j.sourceColumn), same Keys.targetTable (.str j.targetTable),
    same Keys.targetAlias (.str j.targetAlias), same Keys.targetColumn (.str j.targetColumn),
    same Keys.customCondition (.ofOption j.condition), same Keys.edge (.ofOption j.edge),
    (Keys.targetSubquery, (j.subquery.map (write s)).getD .null,
      (j.subquery.map (write t)).getD .null),
    same Keys.targetSubqueryAlias (.ofOption j.subqueryAlias)]
    (Nat.le_succ n) (by simp only [List.map]; decide) ?_
  intro members holds
  simp only [List.forall_mem_cons] at holds
  obtain ⟨id, kind, sourceTable, sourceAlias, sourceColumn, targetTable, targetAlias, targetColumn,
    condition, edge, subquery, subqueryAlias, -⟩ := holds
  simp only [textOrEmpty, optionalText]
  rw [id.optional (readsBack_text _), kind.optional (readsBack_joinKind _),
    sourceTable.required (readsBack_text _), sourceAlias.required (readsBack_text _),
    sourceColumn.optional (readsBack_text _), targetTable.required (readsBack_text _),
    targetAlias.required (readsBack_text _), targetColumn.optional (readsBack_text _),
    condition.optional (readsBack_optionalText _), edge.optional (readsBack_optionalText _),
    subquery.optional (readsBack_subquery sub _),
    subqueryAlias.optional (readsBack_optionalText _)]
  rfl

theorem readsBack_condition (c : Condition Query) : ReadsBack n (readCondition r)
    (writeCondition s (c.map (write s))) (writeCondition t (c.map (write t))) c := by
  refine readsBack_object [same Keys.id (.str c.id), same Keys.tableId (.str c.table),
    same Keys.column (.str c.column), same Keys.operator (.str c.operator.name),
    same Keys.value c.value, same Keys.connective (.ofOption (c.connective.map Connective.name)),
    same Keys.order (.int c.order),
    (Keys.subquery, (c.subquery.map (write s)).getD .null, (c.subquery.map (write t)).getD .null)]
    (Nat.le_succ n) (by simp only [List.map]; decide) ?_
  intro members holds
  simp only [List.forall_mem_cons] at holds
  obtain ⟨id, table, column, operator, value, connective, order, subquery, -⟩ := holds
  simp only [textOrEmpty]
  rw [id.optional (readsBack_text _), table.optional (readsBack_text _),
    column.optional (readsBack_text _), operator.optional (readsBack_operator _),
    value.optional (readsBack_any _), connective.optional (readsBack_connective _),
    order.optional (readsBack_integer _), subquery.optional (readsBack_subquery sub _)]
  rfl

theorem readsBack_cte (c : Cte Query) : ReadsBack n (readCte r)
    (writeCte s (c.map (write s))) (writeCte t (c.map (write t))) c := by
  refine readsBack_object [same Keys.id (.str c.id), same Keys.name (.str c.name),
    (Keys.query, write s c.query, write t c.query),
    same Keys.columns (orNull Json.ofStrings c.columns), same Keys.recursive (.bool c.recursive)]
    (Nat.le_succ n) (by simp only [List.map]; decide) ?_
  intro members holds
  simp only [List.forall_mem_cons] at holds
  obtain ⟨id, name, query, columns, recursive, -⟩ := holds
  rw [textOrEmpty, id.optional (readsBack_text _), name.required (readsBack_text _),
    query.required (sub _), columns.optional (readsBack_columns _),
    recursive.optional (readsBack_truth _)]
  rfl

theorem readsBack_union (u : Union Query) : ReadsBack n (readUnion r)
    (writeUnion s (u.map (write s))) (writeUnion t (u.map (write t))) u := by
  refine readsBack_object [same Keys.id (.str u.id), same Keys.kind (.str u.kind.name),
    (Keys.query, write s u.query, write t u.query), same Keys.order (.int u.order)]
    (Nat.le_succ n) (by simp only [List.map]; decide) ?_
  intro members holds
  simp only [List.forall_mem_cons] at holds
  obtain ⟨id, kind, query, order, -⟩ := holds
  rw [textOrEmpty, id.optional (readsBack_text _), kind.optional (readsBack_unionKind _),
    query.required (sub _), order.optional (readsBack_integer _)]
  rfl

/-! ## Levels -/

end

/-- A clause around a list is read back when its items are. -/
theorem readsBack_clause {α : Type} (f : FieldName) {item : Reader α} {first second : α → Json}
    (l : List α) (each : ∀ x, ReadsBack n item (first x) (second x) x) :
    ReadsBack n (readClause f item) (writeClause s f (l.map first))
      (writeClause t f (l.map second)) l := by
  refine readsBack_object [(f, .arr (l.map first), .arr (l.map second))]
    (Nat.le_succ n) (List.pairwise_singleton _ _) ?_
  intro members holds
  exact (holds _ (List.mem_singleton.mpr rfl)).optional (readsBack_list l fun x _ => each x) []

theorem readsBack_optionalClause {α : Type} (f : FieldName) {item : Reader α}
    {first second : α → Json} (o : Option (List α))
    (each : ∀ x, ReadsBack n item (first x) (second x) x) :
    ReadsBack n (nullable (readClause f item)) (orNull (fun l => writeClause s f (l.map first)) o)
      (orNull (fun l => writeClause t f (l.map second)) o) o := by
  cases o with
  | none => exact readsBack_null
  | some l => exact (readsBack_clause f l each).nullable nofun

theorem readsBack_optionalLimit (o : Option Limit) :
    ReadsBack n (nullable readLimit) (orNull (writeLimit s) o) (orNull (writeLimit t) o) o := by
  cases o with
  | none => exact readsBack_null
  | some l => exact (readsBack_limit l).nullable nofun

/-- The conditions of a level, before and after their nested queries are written. -/
theorem orNull_conditions (style : KeyStyle) (o : Option (List (Condition Query))) :
    orNull (fun cs => writeClause style Keys.conditions (cs.map (writeCondition style)))
        (o.map (List.map (Condition.map (write style)))) =
      orNull (fun cs => writeClause style Keys.conditions
        (cs.map fun c => writeCondition style (c.map (write style)))) o := by
  cases o with
  | none => rfl
  | some cs => simp only [Option.map_some, orNull, List.map_map, Function.comp_def]

/-- A level is read back when the queries nested in it are, and these are less deep. -/
theorem readsBack_clauses (sub : ∀ q, ReadsBack n r (write s q) (write t q) q)
    (c : Clauses Query) : ReadsBack (n + 1) (readObject fun m => Query.mk <$> readClauses r m)
      (write s (.mk c)) (write t (.mk c)) (.mk c) := by
  rw [write_mk, write_mk]
  refine readsBack_object [
    (Keys.source, writeSource s (c.source.map (write s)), writeSource t (c.source.map (write t))),
    (Keys.select,
      writeClause s Keys.fields ((c.fields.map (Field.map (write s))).map (writeField s)),
      writeClause t Keys.fields ((c.fields.map (Field.map (write t))).map (writeField t))),
    (Keys.joins, .arr ((c.joins.map (Join.map (write s))).map (writeJoin s)),
      .arr ((c.joins.map (Join.map (write t))).map (writeJoin t))),
    (Keys.filter,
      orNull (fun cs => writeClause s Keys.conditions (cs.map (writeCondition s)))
        (c.conditions.map (List.map (Condition.map (write s)))),
      orNull (fun cs => writeClause t Keys.conditions (cs.map (writeCondition t)))
        (c.conditions.map (List.map (Condition.map (write t))))),
    (Keys.groupBy,
      orNull (fun gs => writeClause s Keys.fields (gs.map (writeGrouping s))) c.groupings,
      orNull (fun gs => writeClause t Keys.fields (gs.map (writeGrouping t))) c.groupings),
    (Keys.orderBy,
      orNull (fun ss => writeClause s Keys.fields (ss.map (writeSorting s))) c.sortings,
      orNull (fun ss => writeClause t Keys.fields (ss.map (writeSorting t))) c.sortings),
    (Keys.limit, orNull (writeLimit s) c.limit, orNull (writeLimit t) c.limit),
    (Keys.ctes, .arr ((c.ctes.map (Cte.map (write s))).map (writeCte s)),
      .arr ((c.ctes.map (Cte.map (write t))).map (writeCte t))),
    (Keys.unions, .arr ((c.unions.map (Union.map (write s))).map (writeUnion s)),
      .arr ((c.unions.map (Union.map (write t))).map (writeUnion t)))]
    (Nat.le_refl _) (by simp only [List.map]; decide) ?_
  intro members holds
  simp only [List.forall_mem_cons, orNull_conditions, List.map_map] at holds
  obtain ⟨source, select, joins, filter, groupBy, orderBy, limit, ctes, unions, -⟩ := holds
  rw [readClauses, source.optional (readsBack_source sub _),
    select.optional (readsBack_clause _ _ (readsBack_field sub)),
    joins.optional (readsBack_list _ fun j _ => readsBack_join sub j),
    filter.optional (readsBack_optionalClause _ _ (readsBack_condition sub)),
    groupBy.optional (readsBack_optionalClause _ _ readsBack_grouping),
    orderBy.optional (readsBack_optionalClause _ _ readsBack_sorting),
    limit.optional (readsBack_optionalLimit _),
    ctes.optional (readsBack_list _ fun x _ => readsBack_cte sub x),
    unions.optional (readsBack_list _ fun u _ => readsBack_union sub u)]
  rfl

/-! ## Queries -/

/-- A query is read back by a reader that goes as deep as its document. -/
theorem readsBack_readWithin (n : Nat) (q : Query) :
    ReadsBack n (readWithin n) (write s q) (write t q) q := by
  induction n generalizing q with
  | zero =>
    cases q with
    | mk c =>
      intro v mixed deep
      rw [write_mk, write_mk] at mixed
      cases mixed
      rw [depth] at deep
      omega
  | succ n ih =>
    cases q with
    | mk c => exact readsBack_clauses ih c

end

/-- A query is read back from the document it is written as, in either spelling, and from any
document that takes each key from the one spelling or the other. -/
theorem read_write (q : Query) : (∀ style, read (write style q) = .valid q) ∧
    ∀ v, Mixture (write .camel q) (write .snake q) v → read v = .valid q := by
  constructor
  · intro style
    exact readsBack_readWithin _ q _ (Mixture.refl _) (Nat.le_refl _)
  · intro v mixed
    exact readsBack_readWithin _ q v mixed (Nat.le_refl _)

/-- A query from a nested query, with a value in a condition that looks like a member. -/
def nestedOrders : Clauses Query where
  source := { aliasName := "o", subquery := some (.mk { source := { table := "orders" } }) }
  conditions := some [{ table := "o", column := "tags", value := .obj [("table_id", .int 1)] }]

/-- The outer level in the short spelling and the nested query in the long one. -/
theorem mixture_nestedOrders : Mixture (write .camel (.mk nestedOrders))
    (write .snake (.mk nestedOrders)) (writeClauses .camel (nestedOrders.map (write .snake))) := by
  simp only [nestedOrders, write_mk, Clauses.map, Source.map, Condition.map, writeClauses,
    writeSource, writeCondition, writeClause, orNull, Option.map, Option.getD, List.map]
  repeat' first | exact .inl rfl | exact .inr rfl | exact Mixture.refl _ | constructor

theorem read_write_nestedOrders :
    Mixture (write .camel (.mk nestedOrders)) (write .snake (.mk nestedOrders))
        (writeClauses .camel (nestedOrders.map (write .snake))) ∧
      read (writeClauses .camel (nestedOrders.map (write .snake))) = .valid (.mk nestedOrders) :=
  ⟨mixture_nestedOrders, (read_write (.mk nestedOrders)).2 _ mixture_nestedOrders⟩

end QueryWorkbench.Query
