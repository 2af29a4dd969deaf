/-
QueryWorkbench.Proofs.Draft.ReadBack — the SQL of a draft is analysed back.

A draft that starts with a base table and then selects columns and joins tables along the edges of a
graph is written as one SELECT with an alias for every table. As long as no alias is a word of the
patterns, analysing the text gives the joins of the draft under what their aliases stand for, and
these are the tables they were made for where no table goes by the bare name of a later one
(`joins_analyze_sql_after_run`).

## How the proof goes

The run keeps `Selecting`: the joins are those of hops along edges (`Routed`), and there is nothing
but a first table, columns and joins (`Plain`). A text of this kind is one that
`Analysis/Readings.lean` knows how to read, and it relates what the aliases stand for in the text.
Of two tables no more than one join is made, so the text has one ON for each join and they come in
the order of the draft. That the aliases stand for the tables of their joins is then a matter of
names: aliases of the draft differ in any case of letters, so that only the bare name of a table can
take the place of an alias (`Routed.apart`).

## The side conditions

* `Loopless`: along an edge from a table to itself the table would be joined again under a new
  alias.
* `Named`, `IsTable`, `IsColumn`: names are made of word characters and are no keywords, or they
  could not be told from the text around them.
* No alias is a word of the patterns, and for the last part no alias is the bare name of a later
  table. Both can fail: the alias of `settings` is a keyword, and that of `customers` may be the
  name of another table (`not_stated_units`).
* The settings can be read, and the limits admit the text and its joins.
-/
import QueryWorkbench.Proofs.Analysis.Readings
import QueryWorkbench.Proofs.Draft.Hops
import QueryWorkbench.Proofs.Query.AliasNames

namespace QueryWorkbench

open Analysis Sql Text

/-! ## Names -/

/-- A graph whose edges relate tables by columns, all of them names. -/
structure SchemaGraph.Named (g : SchemaGraph) : Prop where
  tables : ∀ e ∈ g.edges, IsTable e.source ∧ IsTable e.target
  columns : ∀ e ∈ g.edges, IsName e.sourceColumn ∧ IsName e.targetColumn

theorem SchemaGraph.Named.of_mem_hopsFrom {g : SchemaGraph} (named : g.Named) {table : String}
    {h : Hop} (hh : h ∈ hopsFrom g.edges table) :
    IsTable table ∧ IsName h.sourceColumn ∧ IsTable h.target ∧ IsName h.targetColumn := by
  obtain ⟨e, he, ⟨rfl, rfl⟩ | ⟨rfl, rfl⟩⟩ := mem_hopsFrom.mp hh
  · exact ⟨(named.tables e he).1, (named.columns e he).1, (named.tables e he).2,
      (named.columns e he).2⟩
  · exact ⟨(named.tables e he).2, (named.columns e he).2, (named.tables e he).1,
      (named.columns e he).1⟩

/-- The actions that select a column, by names, or join a table from the base table. -/
def Action.SelectsOrJoins : Action → Prop
  | .addColumn table column => IsTable table ∧ IsColumn column
  | .addJoin _ source => given source = none
  | _ => False

namespace Draft

variable {w : Workbench} {d final : Draft}

/-! ## Plain drafts -/

/-- A draft of a base table, columns and joins alone, the base table and the columns being names. -/
structure Plain (d : Draft) : Prop where
  base : IsTable d.clauses.source.table
  alone : d.clauses = {
    source := { table := d.clauses.source.table, aliasName := d.clauses.source.aliasName }
    fields := d.clauses.fields
    joins := d.clauses.joins }
  fields : ∀ x ∈ d.clauses.fields, IsTable x.table ∧ IsColumn x.column ∧ x.subquery = none ∧
    x.expression = none ∧ x.aliasName = none

theorem Plain.joined (h : Plain d) (j : Joined d final) : Plain final := by
  obtain ⟨more, same⟩ := j.clauses
  refine ⟨?_, ?_, ?_⟩
  · rw [same]
    exact h.base
  · rw [same, h.alone]
  · rw [same]
    exact h.fields

/-- What a run keeps: joins of hops, and no other clauses than the columns. -/
structure Selecting (w : Workbench) (d : Draft) : Prop where
  routed : Routed w d
  plain : Plain d

namespace Selecting

variable (h : Selecting w d)
include h

theorem led (led : Led w d final) : Selecting w final :=
  ⟨h.routed.led led, h.plain.joined led.joined⟩

theorem select {x : Field Query} (table : IsTable x.table) (column : IsColumn x.column)
    (subquery : x.subquery = none) (expression : x.expression = none)
    (unnamed : x.aliasName = none) :
    Selecting w (d.advance.withClauses fun c => { c with fields := c.fields ++ [x] }) := by
  obtain ⟨routed, base, alone, fields⟩ := h
  refine ⟨⟨routed.named, routed.tables, routed.aliases, routed.fresh, routed.joins⟩, base, ?_, ?_⟩
  · show { d.clauses with fields := d.clauses.fields ++ [x] } = _
    rw [alone]
    rfl
  · intro y hy
    rcases List.mem_append.mp hy with hy | hy
    · exact fields y hy
    · obtain rfl := List.mem_singleton.mp hy
      exact ⟨table, column, subquery, expression, unnamed⟩

theorem perform (loopless : w.graph.Loopless) {a : Action} (ha : a.SelectsOrJoins) :
    Selecting w (d.perform w a).draft := by
  cases a with
  | addColumn table column =>
    rw [Draft.perform, addColumn]
    split
    · exact h
    · exact (h.led (led_reach h.routed table)).select ha.1 ha.2 rfl rfl rfl
  | addJoin target source => exact h.led (led_addJoin loopless h.routed target ha)
  | _ => exact absurd ha id

theorem flat : Flat d.clauses := by
  have alone := h.plain.alone
  refine ⟨?_, ?_, ?_, ?_, ?_, ?_⟩
  · rw [alone]
  · rw [alone]
  · rw [alone]
  · intro x hx
    obtain ⟨-, -, subquery, expression, -⟩ := h.plain.fields x hx
    exact ⟨subquery, by rw [expression]; rfl⟩
  · intro j hj
    obtain ⟨mid, source, sourceAlias, k, -, -, rfl⟩ := h.routed.joins j hj
    exact ⟨rfl, rfl⟩
  · rw [alone]
    exact fun x hx => absurd hx List.not_mem_nil

/-- The clauses of a draft are named where the graph is and no alias is a word of the patterns. -/
theorem named_clauses (named : w.graph.Named)
    (free : ∀ e ∈ d.brought, e.2 ∉ patternWords.map lower) : Named d.clauses := by
  have alone := h.plain.alone
  have aliases : ∀ e ∈ d.brought, IsName e.2 := by
    intro e he
    obtain ⟨taken, made⟩ := h.routed.fresh e he
    rw [made]
    exact isName_freshAlias_iff.mpr (made ▸ free e he)
  refine ⟨⟨h.plain.base, aliases _ (List.mem_cons_self ..)⟩, ?_, ?_, ?_, ?_, ?_, ?_⟩
  · rw [alone]
    rfl
  · intro x hx
    obtain ⟨table, column, -, -, unnamed⟩ := h.plain.fields x hx
    refine ⟨table, column, fun a given_a => ?_⟩
    rw [unnamed] at given_a
    cases given_a
  · intro j hj
    have source := aliases _ (h.routed.source_mem hj)
    have target := aliases _ (target_mem hj)
    obtain ⟨mid, _, _, k, hk, -, rfl⟩ := h.routed.joins j hj
    obtain ⟨table, column, reached, compared⟩ := named.of_mem_hopsFrom hk
    exact ⟨table, source, column, reached, target, compared⟩
  · rw [alone]
    exact fun x hx => absurd hx List.not_mem_nil
  · rw [alone]
    exact fun x hx => absurd hx List.not_mem_nil
  · rw [alone]
    exact fun x hx => absurd hx List.not_mem_nil

end Selecting

theorem ne_empty_of_isTable {t : String} (h : IsTable t) : t ≠ "" := by
  rintro rfl
  exact (quiet_of_isTable h).tidy.nonempty rfl

theorem selecting_setBaseTable {table : String} (h : IsTable table) :
    Selecting w (d.perform w (.setBaseTable table)).draft :=
  ⟨routed_setBaseTable (ne_empty_of_isTable h), h, rfl, fun _ hx => absurd hx List.not_mem_nil⟩

/-! ## Analysing the SQL of drafts -/

/-- Tables with their aliases none of which is the bare name of a later table, in any case. -/
def Unshadowed (tables : List (String × String)) : Prop :=
  tables.Pairwise fun e later => sameName (bareName later.1) e.2 = false

instance (tables : List (String × String)) : Decidable (Unshadowed tables) :=
  inferInstanceAs (Decidable (List.Pairwise _ tables))

/-- The aliases of a draft differ in any case, so only bare names can take their place. -/
theorem Routed.apart (h : Routed w d) (unshadowed : Unshadowed d.brought) : Apart d.brought := by
  have different : d.brought.Pairwise fun e later => e.2 ≠ later.2 := List.pairwise_map.mp h.aliases
  refine (different.and unshadowed).imp_of_mem fun {e later} he hl ⟨other, unnamed⟩ => ?_
  obtain ⟨taken, made⟩ := h.fresh e he
  obtain ⟨others, given⟩ := h.fresh later hl
  have apart : sameName later.2 e.2 = false := by
    rw [sameName, made, given, lower_freshAlias, lower_freshAlias, ← made, ← given]
    exact beq_eq_false_iff_ne.mpr other.symm
  rw [goesBy, apart, unnamed, Bool.or_false]

/-- The aliases of a join stand for its tables. -/
theorem Routed.readPair_eq (h : Routed w d) (unshadowed : Unshadowed d.brought) {j : Join Query}
    (hj : j ∈ d.clauses.joins) : readPair d.brought j = statedPair j := by
  have apart := h.apart unshadowed
  have source : standsFor d.brought j.sourceAlias = j.sourceTable :=
    standsFor_of_apart (e := (j.sourceTable, j.sourceAlias)) apart (h.source_mem hj)
  have target : standsFor d.brought j.targetAlias = j.targetTable :=
    standsFor_of_apart (e := (j.targetTable, j.targetAlias)) apart (target_mem hj)
  rw [readPair, source, target, statedPair]

/-- A draft with a base table is written in the dialect of its workbench. -/
theorem sql_eq (named : d.clauses.source.table ≠ "") {env : Environment}
    {settings : GeneratorSettings} (read : GeneratorSettings.read env = .ok settings)
    (pretty : Option Bool) :
    d.sql w env pretty = .ok (generate w.dialect
      (if pretty.getD settings.pretty then .pretty else .compact) (.mk d.clauses)) := by
  have some_table : ¬ (d.clauses.source.table = "" && d.clauses.source.subquery.isNone) := by
    simp [named]
  rw [sql, if_neg some_table, Generator.choose_name, read]
  rfl

/-- After a base table and any columns and joins along the edges of a graph of names, none of the
aliases being a word of the patterns, the SQL of the draft is analysed without a warning. The report
relates the tables that the aliases of the joins stand for, each two of them once, in any order and
case, and none to itself. These are the tables of the joins if no table goes by the bare name of a
later one. -/
theorem joins_analyze_sql_after_run (loopless : w.graph.Loopless) (named : w.graph.Named)
    {base : String} (hb : IsTable base) {actions : List Action}
    (ha : ∀ a ∈ actions, a.SelectsOrJoins) {start d : Draft}
    (after : start.run w (.setBaseTable base :: actions) = d)
    (free : ∀ e ∈ d.brought, e.2 ∉ patternWords.map lower)
    {env : Environment} {settings : GeneratorSettings}
    (read : GeneratorSettings.read env = .ok settings) (pretty : Option Bool) :
    ∃ sql, d.sql w env pretty = .ok sql ∧
      ∀ limits : Limits, (sql.length : Int) ≤ limits.maxLength → 1 ≤ limits.maxMatches →
        (d.clauses.joins.length : Int) ≤ limits.maxMatches →
        ∃ report, analyze limits sql = (report, []) ∧
          report.joins = ((d.clauses.joins.map (readPair d.brought)).filter
            fun p => !sameName p.source p.target).eraseDupsBy sameTables ∧
          (Unshadowed d.brought →
            report.joins = ((d.clauses.joins.map statedPair).filter
              fun p => !sameName p.source p.target).eraseDupsBy sameTables) := by
  have selecting : Selecting w d := after ▸
    run_keeps (d := (start.perform w (.setBaseTable base)).draft)
      (fun allowed kept => kept.perform loopless allowed) (selecting_setBaseTable hb) ha
  -- No two joins relate the same tables, so the text has one ON for each, in their order.
  have alone := JoinGroup.ofJoins_of_nodup selecting.routed.nodup_pairs
  have brought_eq : broughtUnder d.clauses = d.brought := by
    rw [broughtUnder, alone, List.map_map]
    rfl
  have members : (JoinGroup.ofJoins d.clauses.joins).flatMap JoinGroup.members = d.clauses.joins := by
    rw [alone, List.flatMap_map]
    exact List.flatMap_singleton' _
  refine ⟨_, sql_eq selecting.routed.named read pretty, fun limits short some enough => ?_⟩
  obtain ⟨report, analysed, joins⟩ := joins_analyze_generate w.dialect _ (q := .mk d.clauses)
    selecting.flat (selecting.named_clauses named free) short some
    (by
      rw [Query.clauses, alone, List.length_map]
      exact enough)
  rw [Query.clauses, members, brought_eq] at joins
  refine ⟨report, analysed, joins, fun unshadowed => ?_⟩
  rw [joins, List.map_congr_left fun j hj => selecting.routed.readPair_eq unshadowed hj]

/-- Orders of customers, who live in regions, and the items of orders. -/
def delivery : Workbench where
  graph :=
    { edges := [⟨"1", "orders", "customers", "customer_id", "id", none⟩,
        ⟨"2", "customers", "geo.regions", "region_id", "id", none⟩,
        ⟨"3", "order_items", "orders", "order_id", "id", none⟩] }
  bestDepth := 3
  dialect := .sqlServer

/-- The regions of orders, and the items of these. -/
def regionsAndItems : List Action := [.addColumn "geo.regions" "name", .addJoin "order_items" none]

theorem joins_analyze_sql_after_run_delivery :
    ∃ d, run delivery {} (.setBaseTable "orders" :: regionsAndItems) = d ∧
      delivery.graph.Loopless ∧ delivery.graph.Named ∧ IsTable "orders" ∧
      (∀ a ∈ regionsAndItems, a.SelectsOrJoins) ∧
      (∀ e ∈ d.brought, e.2 ∉ patternWords.map lower) ∧ Unshadowed d.brought ∧
      GeneratorSettings.read [] = .ok {} ∧
      ∃ sql, d.sql delivery [] none = .ok sql ∧
        ∃ report, analyze ⟨sql.length, 3, 0⟩ sql = (report, []) ∧
          report.joins.map (fun p => (p.source, p.target)) =
            [("orders", "customers"), ("customers", "geo.regions"), ("orders", "order_items")] := by
  have names : ∀ s ∈ ["orders", "customers", "geo", "regions", "order_items", "customer_id", "id",
      "region_id", "order_id", "name"], IsName s := by decide +kernel
  have orders : IsTable "orders" := Or.inl (names _ (by simp))
  have customers : IsTable "customers" := Or.inl (names _ (by simp))
  have items : IsTable "order_items" := Or.inl (names _ (by simp))
  have regions : IsTable "geo.regions" :=
    Or.inr ⟨"geo", "regions", names _ (by simp), names _ (by simp), by decide⟩
  have loopless : delivery.graph.Loopless := by
    unfold SchemaGraph.Loopless
    decide
  have named : delivery.graph.Named := by
    constructor
    · simp [delivery, orders, customers, items, regions]
    · simp [delivery, names]
  have allowed : ∀ a ∈ regionsAndItems, a.SelectsOrJoins := by
    have column : IsColumn "name" := Or.inr (names _ (by simp))
    simp only [regionsAndItems, List.forall_mem_cons]
    exact ⟨⟨regions, column⟩, rfl, nofun⟩
  have free : ∀ e ∈ (run delivery {} (.setBaseTable "orders" :: regionsAndItems)).brought,
      e.2 ∉ patternWords.map lower := by decide +kernel
  have unshadowed : Unshadowed
      (run delivery {} (.setBaseTable "orders" :: regionsAndItems)).brought := by decide +kernel
  have read : GeneratorSettings.read [] = .ok {} := rfl
  have one : (1 : Int) ≤ 3 := by decide
  have few : ((run delivery {} (.setBaseTable "orders" :: regionsAndItems)).clauses.joins.length :
      Int) ≤ 3 := by decide
  obtain ⟨sql, written, analysed⟩ := joins_analyze_sql_after_run loopless named orders allowed rfl
    free read none
  obtain ⟨report, found, -, joins⟩ := analysed ⟨sql.length, 3, 0⟩ le_rfl one few
  refine ⟨_, rfl, loopless, named, orders, allowed, free, unshadowed, read, sql, written, report,
    found, ?_⟩
  rw [joins unshadowed]
  decide +kernel

/-- Settings of customers, and the units that customers belong to. -/
def units : Workbench where
  graph :=
    { edges := [⟨"1", "settings", "customers", "customer_id", "id", none⟩,
        ⟨"2", "customers", "cus", "unit_id", "id", none⟩] }
  bestDepth := 3
  dialect := .mysql

/-- The alias of `settings` is a keyword and is not read as an alias, so the join is reported from a
table `set` that there is not. The alias of `customers` is the name of the other table, so the join
of these two is not reported. -/
theorem not_stated_units :
    units.graph.Loopless ∧ units.graph.Named ∧ IsTable "settings" ∧ IsTable "customers" ∧
      (∃ d sql, run units {} [.setBaseTable "settings", .addJoin "customers" none] = d ∧
        d.sql units [] (some false) = .ok sql ∧
        sql = "SELECT * FROM \x60settings\x60 AS set LEFT JOIN \x60customers\x60 AS cus" ++
          " ON set.\x60customer_id\x60 = cus.\x60id\x60" ∧
        d.clauses.joins.map Join.pair = [("settings", "customers")] ∧
        (analyze ⟨1000, 10, 5⟩ sql).1.joins.map (fun p => (p.source, p.target)) =
          [("set", "customers")]) ∧
      ∃ d sql, run units {} [.setBaseTable "customers", .addJoin "cus" none] = d ∧
        d.sql units [] (some false) = .ok sql ∧
        sql = "SELECT * FROM \x60customers\x60 AS cus LEFT JOIN \x60cus\x60 AS cus1" ++
          " ON cus.\x60unit_id\x60 = cus1.\x60id\x60" ∧
        d.clauses.joins.map Join.pair = [("customers", "cus")] ∧
        (analyze ⟨1000, 10, 5⟩ sql).1.joins = [] := by
  have names : ∀ s ∈ ["settings", "customers", "cus", "customer_id", "unit_id", "id"], IsName s := by
    decide +kernel
  have settings : IsTable "settings" := Or.inl (names _ (by simp))
  have customers : IsTable "customers" := Or.inl (names _ (by simp))
  have cus : IsTable "cus" := Or.inl (names _ (by simp))
  have loopless : units.graph.Loopless := by
    unfold SchemaGraph.Loopless
    decide
  have named : units.graph.Named := by
    constructor
    · simp [units, settings, customers, cus]
    · simp [units, names]
  refine ⟨loopless, named, settings, customers, ?_, ?_⟩
  · exact ⟨_, _, rfl, sql_eq (by decide) rfl (some false), by decide +kernel, by decide,
      by decide +kernel⟩
  · exact ⟨_, _, rfl, sql_eq (by decide) rfl (some false), by decide +kernel, by decide,
      by decide +kernel⟩

end Draft

end QueryWorkbench
