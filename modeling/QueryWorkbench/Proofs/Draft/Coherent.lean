/-
QueryWorkbench.Proofs.Draft.Coherent — drafts that are built from columns pass the check.

`Coherent` is what holds of a draft that is started from a node of the graph and then edited by the
actions on its SELECT list and by joins from the base table. What the check says of such a draft is
little: the only issue it can raise is that a selected column is of a table which is out of reach
from the base table (`issues_after_run`).

## How the proof goes

Every action keeps the invariant (`Coherent.perform`, one lemma for each of them), so it holds after
any run (`Coherent.run`). The joins are `Grown` in the sense of `Draft/Growth.lean`, and the walk
that the check makes along grown joins raises nothing and knows all tables in scope
(`Check.walkJoins_grown`). No column is selected twice, and there are no other clauses, which leaves
the references of the SELECT list (`Coherent.mem_issues`). A column out of scope was added when no
best path led to its table, and since the base table does not change, none does now; that no walk
does either is the completeness of the search (`not_walk_of_bestPath?_eq_none`).

## The side conditions

* `WellFormed`: nodes have different ids and none is empty, and an edge compares columns that its
  two tables have, which are not the same one. The check looks tables and columns up in the graph.
* A join starts at the base table. From a table that is not there the path would start nowhere.
* An expression is not empty, since an empty one counts as a column of a table without a name.
-/
import QueryWorkbench.Proofs.Check.Growth
import QueryWorkbench.Proofs.Draft.Run
import QueryWorkbench.Proofs.Draft.Update

namespace QueryWorkbench

/-! ## The actions -/

/-- The actions that choose a base table among the nodes, edit the SELECT list, or join a table
from the base table. -/
def Action.BuildsSelection (g : SchemaGraph) : Action → Prop
  | .setBaseTable table => table ∈ g.nodeIds
  | .addColumn _ _ => True
  | .addExpression expression _ => expression ≠ ""
  | .removeField _ => True
  | .renameField _ _ => True
  | .addJoin _ source => Sql.given source = none
  | _ => False

namespace Draft

open Check (selectedColumns)

variable {w : Workbench} {d : Draft}

/-! ## The invariant -/

/-- A draft that starts from a node, has only grown joins, selects no column twice and no nested
query, has no clause but SELECT, FROM and JOIN, and of whose selected columns each is of a table
in scope or of one that no path leads to. -/
structure Coherent (w : Workbench) (d : Draft) : Prop where
  base_node : d.clauses.source.table ∈ w.graph.nodeIds
  base_alias : d.clauses.source.aliasName ≠ ""
  base_table : d.clauses.source.subquery = none
  grown : Grown w.graph d.clauses.source d.clauses.joins
  flat : ∀ x ∈ d.clauses.fields, x.subquery = none
  columns_nodup : (selectedColumns d.clauses.fields).Nodup
  reached : ∀ x ∈ d.clauses.fields, Sql.given x.expression = none →
    x.table ∈ d.inScope ∨ w.bestPath? d.clauses.source.table x.table = none
  no_conditions : d.clauses.conditions = none
  no_groupings : d.clauses.groupings = none
  no_sortings : d.clauses.sortings = none

theorem Coherent.named (hg : w.graph.WellFormed) (h : Coherent w d) :
    d.clauses.source.table ≠ "" :=
  hg.ids_nonempty _ h.base_node

/-- An id that is taken changes nothing. -/
theorem Coherent.advance (h : Coherent w d) : Coherent w d.advance :=
  ⟨h.base_node, h.base_alias, h.base_table, h.grown, h.flat, h.columns_nodup, h.reached,
    h.no_conditions, h.no_groupings, h.no_sortings⟩

theorem Coherent.of_grows (h : Coherent w d) {final : Draft} (grows : Grows w d final) :
    Coherent w final := by
  obtain ⟨more, same⟩ := grows.clauses
  refine ⟨?_, ?_, ?_, grows.grown, ?_, ?_, ?_, ?_, ?_, ?_⟩
  · rw [grows.source_eq]; exact h.base_node
  · rw [grows.source_eq]; exact h.base_alias
  · rw [grows.source_eq]; exact h.base_table
  · rw [grows.fields_eq]; exact h.flat
  · rw [grows.fields_eq]; exact h.columns_nodup
  · rw [grows.fields_eq, grows.source_eq]
    intro x hx plain
    exact (h.reached x hx plain).imp_left grows.inScope
  · rw [same]; exact h.no_conditions
  · rw [same]; exact h.no_groupings
  · rw [same]; exact h.no_sortings

/-- Other fields leave a draft coherent as long as they keep to what is asked of fields. -/
theorem Coherent.withFields (h : Coherent w d) {fields : List (Field Query)}
    (flat : ∀ x ∈ fields, x.subquery = none) (columns_nodup : (selectedColumns fields).Nodup)
    (reached : ∀ x ∈ fields, Sql.given x.expression = none →
      x.table ∈ d.inScope ∨ w.bestPath? d.clauses.source.table x.table = none) :
    Coherent w (d.withClauses fun c => { c with fields := fields }) :=
  ⟨h.base_node, h.base_alias, h.base_table, h.grown, flat, columns_nodup, reached,
    h.no_conditions, h.no_groupings, h.no_sortings⟩

theorem selectedColumns_append (fields more : List (Field Query)) :
    selectedColumns (fields ++ more) = selectedColumns fields ++ selectedColumns more := by
  simp [selectedColumns]

/-! ## One action -/

/-- A new start is coherent, whatever was there before. -/
theorem coherent_setBaseTable {table : String} (ht : table ∈ w.graph.nodeIds) :
    Coherent w (d.perform w (.setBaseTable table)).draft := by
  refine ⟨ht, ?_, rfl, .nil, ?_, List.nodup_nil, ?_, rfl, rfl, rfl⟩
  · have stem := freshAlias_nil table
    exact fun empty => aliasStem_ne_empty table (stem.symm.trans empty)
  · exact fun _ h => absurd h List.not_mem_nil
  · exact fun _ h => absurd h List.not_mem_nil

theorem Coherent.addColumn (hg : w.graph.WellFormed) (h : Coherent w d) (table column : String) :
    Coherent w (d.addColumn w table column).draft := by
  rw [Draft.addColumn]
  split
  · exact h
  · rename_i absent
    obtain ⟨grows, reached⟩ := grows_reach hg (h.named hg) h.grown table
    have reached_h := h.of_grows grows
    refine reached_h.advance.withFields ?_ ?_ ?_
    · intro x hx
      rcases List.mem_append.mp hx with hx | hx
      · exact reached_h.flat x hx
      · rw [List.mem_singleton.mp hx]
    · rw [selectedColumns_append, advance_clauses, ItemClause.items_fields, grows.fields_eq,
        List.nodup_append]
      refine ⟨h.columns_nodup, List.nodup_singleton _, ?_⟩
      rintro p hp q hq rfl
      obtain ⟨x, hx, rfl⟩ := List.mem_map.mp hp
      obtain ⟨table_eq, column_eq⟩ : x.table = table ∧ x.column = column := by
        simpa [selectedColumns, Sql.given] using hq
      refine absent (List.any_eq_true.mpr ⟨x, (List.mem_filter.mp hx).1, ?_⟩)
      simp [table_eq, column_eq]
    · intro x hx plain
      rcases List.mem_append.mp hx with hx | hx
      · exact reached_h.reached x hx plain
      · rw [List.mem_singleton.mp hx]
        exact reached.imp_right fun none => by
          rw [← none]
          exact congrArg (fun s : Source Query => w.bestPath? s.table table) grows.source_eq

theorem Coherent.addExpression (h : Coherent w d) {expression : String} (some_text : expression ≠ "")
    (aliasName : Option String) : Coherent w (d.addExpression expression aliasName).draft := by
  have text : Sql.given (some expression) = some expression := by simp [Sql.given, some_text]
  refine h.advance.withFields ?_ ?_ ?_
  · intro x hx
    rcases List.mem_append.mp hx with hx | hx
    · exact h.flat x hx
    · rw [List.mem_singleton.mp hx]
  · rw [selectedColumns_append, advance_clauses, ItemClause.items_fields]
    simpa [selectedColumns, text] using h.columns_nodup
  · intro x hx plain
    rcases List.mem_append.mp hx with hx | hx
    · exact h.reached x hx plain
    · rw [List.mem_singleton.mp hx, text] at plain
      cases plain

theorem Coherent.removeField (h : Coherent w d) (id : String) :
    Coherent w (d.perform w (.removeField id)).draft := by
  refine h.withFields ?_ ?_ ?_
  · exact fun x hx => h.flat x (List.mem_filter.mp hx).1
  · exact h.columns_nodup.sublist ((List.filter_sublist.filter _).map _)
  · exact fun x hx => h.reached x (List.mem_filter.mp hx).1

theorem Coherent.renameField (h : Coherent w d) (id : String) (aliasName : Option String) :
    Coherent w (d.renameField id aliasName).draft := by
  rcases update_cases d .fields fieldDocument (Query.readField Query.read) .field id
      [("alias", .ofOption (Sql.given aliasName))] with
    ⟨f, same⟩ | same | ⟨before, a, after, b, all, -, -, read_eq, same⟩ <;>
    rw [Draft.renameField, same]
  · exact h
  · exact h
  · replace all : d.clauses.fields = before ++ a :: after := all
    have mem_a : a ∈ d.clauses.fields := by simp [all]
    rw [read_renamed (h.flat a mem_a)] at read_eq
    obtain rfl : { a with aliasName := Sql.given aliasName } = b := by simpa using read_eq
    -- Only the alias is another one, which none of the three conditions looks at.
    have mem_old : ∀ {x : Field Query},
        x ∈ before ++ { a with aliasName := Sql.given aliasName } :: after →
        ∃ y ∈ d.clauses.fields,
          x.subquery = y.subquery ∧ x.expression = y.expression ∧ x.table = y.table := by
      intro x hx
      rw [all]
      rcases List.mem_append.mp hx with hx | hx
      · exact ⟨x, List.mem_append_left _ hx, rfl, rfl, rfl⟩
      · rcases List.mem_cons.mp hx with rfl | hx
        · exact ⟨a, by simp, rfl, rfl, rfl⟩
        · exact ⟨x, by simp [hx], rfl, rfl, rfl⟩
    refine h.withFields ?_ ?_ ?_
    · intro x hx
      obtain ⟨y, hy, same, _, _⟩ := mem_old hx
      exact same.trans (h.flat y hy)
    · have same : selectedColumns (before ++ { a with aliasName := Sql.given aliasName } :: after) =
          selectedColumns d.clauses.fields := by
        rw [all]
        simp [selectedColumns, List.filter_cons, apply_ite]
      rw [same]
      exact h.columns_nodup
    · intro x hx plain
      obtain ⟨y, hy, _, same, table_eq⟩ := mem_old hx
      rw [table_eq]
      exact h.reached y hy (same ▸ plain)

/-- Each of the actions keeps a draft coherent. -/
theorem Coherent.perform (hg : w.graph.WellFormed) (h : Coherent w d) {a : Action}
    (ha : a.BuildsSelection w.graph) : Coherent w (d.perform w a).draft := by
  cases a with
  | setBaseTable table => exact coherent_setBaseTable ha
  | addColumn table column => exact h.addColumn hg table column
  | addExpression expression aliasName => exact h.addExpression ha aliasName
  | removeField id => exact h.removeField id
  | renameField id aliasName => exact h.renameField id aliasName
  | addJoin target source => exact h.of_grows (grows_addJoin hg (h.named hg) h.grown target ha)
  | _ => exact absurd ha id

/-- So does any run of them. -/
theorem Coherent.run (hg : w.graph.WellFormed) {actions : List Action} {d : Draft}
    (h : Coherent w d) (ha : ∀ a ∈ actions, a.BuildsSelection w.graph) :
    Coherent w (d.run w actions) :=
  run_keeps (fun allowed kept => kept.perform hg allowed) h ha

/-! ## What the check says -/

/-- In a coherent draft only a selected column out of scope is an issue, and no path leads to its
table. -/
theorem Coherent.mem_issues (hg : w.graph.WellFormed) (h : Coherent w d) {i : Check.Issue}
    (hi : i ∈ Check.issues (some w.graph) d.clauses) :
    ∃ x ∈ d.clauses.fields,
      i = ⟨.missingJoin, "SELECT references '" ++ x.table ++ "', which is not joined",
        Check.itemId x.id⟩ ∧
      x.table ∉ d.inScope ∧ w.bestPath? d.clauses.source.table x.table = none := by
  have named := h.named hg
  have passed : Check.Passed w.graph d.clauses.source d.clauses.joins
      (Check.walkJoins (some w.graph) (d.clauses.ctes.map (·.name))
        (Check.Scope.ofSource d.clauses.source) d.clauses.joins) :=
    Check.walkJoins_grown hg named h.base_alias h.grown
  have source : Check.sourceIssues (some w.graph) (d.clauses.ctes.map (·.name)) d.clauses.source =
      [] := by
    simp [Check.sourceIssues, Check.tableKnown, h.base_table, named,
      SchemaGraph.isSome_node? h.base_node]
  have duplicates : Check.duplicateIssues [] d.clauses.fields = [] :=
    Check.duplicateIssues_eq_nil (fun _ hp => absurd hp List.not_mem_nil) h.columns_nodup
  have only_references : Check.issues (some w.graph) d.clauses =
      Check.referenceIssues (Check.walkJoins (some w.graph) (d.clauses.ctes.map (·.name))
        (Check.Scope.ofSource d.clauses.source) d.clauses.joins).2.names
        (Check.references d.clauses) := by
    simp [Check.issues, source, duplicates, passed.no_issue]
  rw [only_references] at hi
  obtain ⟨r, hr, rfl⟩ := List.mem_map.mp hi
  obtain ⟨hr, out⟩ := List.mem_filter.mp hr
  obtain ⟨x, hx, rfl⟩ : ∃ x ∈ d.clauses.fields.filter fun x =>
      (x.expression.filter (· ≠ "")).isNone,
      (⟨x.id, x.table, "SELECT"⟩ : Check.Reference) = r := by
    simpa [Check.references, h.no_conditions, h.no_groupings, h.no_sortings] using hr
  obtain ⟨hx, plain⟩ := List.mem_filter.mp hx
  have out_of_scope : x.table ∉ d.inScope := by
    intro there
    have in_names := passed.names _ there
    simp [in_names] at out
  refine ⟨x, hx, rfl, out_of_scope, ?_⟩
  exact (h.reached x hx (Option.isNone_iff_eq_none.mp plain)).resolve_left out_of_scope

/-- Where no best path is found no walk is short enough. -/
theorem not_walk_of_bestPath?_eq_none {a b : String} (hne : a ≠ b)
    (none : w.bestPath? a b = none) {n : Nat} (hn : n ≤ w.bestDepth) :
    ¬ Walk w.graph.edges a n b := by
  intro walk
  refine (JoinPath.search_ne_nil_iff hne w.bestDepth).mpr ⟨n, hn, walk⟩ ?_
  exact List.head?_eq_none_iff.mp none

/-- After any run that starts with a base table, the check has one kind of complaint: a selected
column of a table that cannot be reached from the base table within the depth of best paths. -/
theorem issues_after_run (hg : w.graph.WellFormed) {base : String} (hb : base ∈ w.graph.nodeIds)
    {actions : List Action} (ha : ∀ a ∈ actions, a.BuildsSelection w.graph) (d : Draft) :
    ∀ i ∈ Check.issues (some w.graph) (d.run w (.setBaseTable base :: actions)).clauses,
      ∃ x ∈ (d.run w (.setBaseTable base :: actions)).clauses.fields,
        i = ⟨.missingJoin, "SELECT references '" ++ x.table ++ "', which is not joined",
          Check.itemId x.id⟩ ∧
        ∀ n ≤ w.bestDepth, ¬ Walk w.graph.edges
          (d.run w (.setBaseTable base :: actions)).clauses.source.table n x.table := by
  have coherent : Coherent w (d.run w (.setBaseTable base :: actions)) :=
    (coherent_setBaseTable hb).run hg ha
  intro i hi
  obtain ⟨x, hx, rfl, out, none⟩ := coherent.mem_issues hg hi
  refine ⟨x, hx, rfl, fun n hn => not_walk_of_bestPath?_eq_none ?_ none hn⟩
  exact fun same => out (same ▸ List.mem_cons_self ..)

/-- Orders lead to regions over customers, and nothing leads to the audit. -/
def shop : Workbench where
  graph :=
    { nodes := [{ id := "orders", label := "", columns := [{ name := "customer" }] },
        { id := "customers", label := "", columns := [{ name := "id" }, { name := "region" }] },
        { id := "regions", label := "", columns := [{ name := "id" }] },
        { id := "audit", label := "" }]
      edges := [⟨"1", "orders", "customers", "customer", "id", none⟩,
        ⟨"2", "customers", "regions", "region", "id", none⟩] }
  bestDepth := 3
  dialect := .mysql

theorem wellFormed_shop : shop.graph.WellFormed :=
  ⟨by decide, by decide, by decide, by decide, by decide⟩

/-- A table two hops away, an unreachable one, a renaming, a removal and a join. -/
def shopping : List Action :=
  [.addColumn "regions" "id", .addColumn "audit" "entry", .addExpression "1" none,
    .renameField "field-3" (some "region"), .removeField "expr-5", .addJoin "customers" none]

theorem issues_after_run_shopping :
    shop.graph.WellFormed ∧ "orders" ∈ shop.graph.nodeIds ∧
      (∀ a ∈ shopping, a.BuildsSelection shop.graph) ∧
      ∀ i ∈ Check.issues (some shop.graph)
          (Draft.run shop {} (.setBaseTable "orders" :: shopping)).clauses,
        ∃ x ∈ (Draft.run shop {} (.setBaseTable "orders" :: shopping)).clauses.fields,
          i = ⟨.missingJoin, "SELECT references '" ++ x.table ++ "', which is not joined",
            Check.itemId x.id⟩ ∧
          ∀ n ≤ shop.bestDepth, ¬ Walk shop.graph.edges
            (Draft.run shop {} (.setBaseTable "orders" :: shopping)).clauses.source.table n
            x.table := by
  have base : "orders" ∈ shop.graph.nodeIds := by decide
  have actions : ∀ a ∈ shopping, a.BuildsSelection shop.graph := by
    simp [shopping, Action.BuildsSelection, Sql.given]
  exact ⟨wellFormed_shop, base, actions, issues_after_run wellFormed_shop base actions {}⟩

end Draft

end QueryWorkbench
