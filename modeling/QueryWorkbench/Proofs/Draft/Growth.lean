/-
QueryWorkbench.Proofs.Draft.Growth — how the joins of a draft grow.

`Grown` is what the automatic joins of a draft keep to: each starts from a table that is there
already, brings in a table that is not, gives it an alias that no table has, and compares columns
that its two tables have. A hop along an edge of a well-formed graph makes such a join
(`fits_hopJoin`), and a path makes one for each of its hops that leads to a new table
(`grows_joinHops`).
-/
import QueryWorkbench.Draft.Join
import QueryWorkbench.Proofs.JoinPath.Shortest
import QueryWorkbench.Proofs.Query.FreshAlias
import QueryWorkbench.Proofs.Query.TableAlias

namespace QueryWorkbench

/-! ## Well-formed graphs -/

/-- A graph whose nodes have different ids, none of them empty, and whose edges lead from a named
column of one node to a named column of another. -/
structure SchemaGraph.WellFormed (g : SchemaGraph) : Prop where
  ids_nodup : g.nodeIds.Nodup
  ids_nonempty : ∀ id ∈ g.nodeIds, id ≠ ""
  source_column : ∀ e ∈ g.edges, e.sourceColumn ≠ "" ∧
    ∃ n ∈ g.nodes, n.id = e.source ∧ n.hasColumn e.sourceColumn = true
  target_column : ∀ e ∈ g.edges, e.targetColumn ≠ "" ∧
    ∃ n ∈ g.nodes, n.id = e.target ∧ n.hasColumn e.targetColumn = true
  no_loop : ∀ e ∈ g.edges, e.source ≠ e.target

/-- The node with an id has a column of this name, which is not empty. -/
def SchemaGraph.NamesColumn (g : SchemaGraph) (table column : String) : Prop :=
  column ≠ "" ∧ ∃ n, g.node? table = some n ∧ n.hasColumn column = true

namespace SchemaGraph

variable {g : SchemaGraph}

theorem node?_of_mem (hg : g.WellFormed) {n : Node} (hn : n ∈ g.nodes) :
    g.node? n.id = some n := by
  cases found : g.node? n.id with
  | none =>
    have absent := List.find?_eq_none.mp found n hn
    exact absurd (beq_self_eq_true n.id) absent
  | some m =>
    have same : m.id = n.id := by simpa using List.find?_some found
    rw [List.inj_on_of_nodup_map hg.ids_nodup (List.mem_of_find?_eq_some found) hn same]

theorem isSome_node? {id : String} (h : id ∈ g.nodeIds) : (g.node? id).isSome = true := by
  obtain ⟨n, hn, rfl⟩ := List.mem_map.mp h
  exact List.find?_isSome.mpr ⟨n, hn, beq_self_eq_true n.id⟩

theorem NamesColumn.isSome_node? {table column : String} (h : g.NamesColumn table column) :
    (g.node? table).isSome = true := by
  obtain ⟨_, n, hn, _⟩ := h
  rw [hn, Option.isSome_some]

/-- A hop along an edge names columns of both its tables, and leads to another table. -/
theorem namesColumn_of_mem_hopsFrom (hg : g.WellFormed) {a : String} {h : Hop}
    (hh : h ∈ hopsFrom g.edges a) :
    g.NamesColumn a h.sourceColumn ∧ g.NamesColumn h.target h.targetColumn ∧ h.target ≠ a := by
  obtain ⟨e, he, cases_e⟩ := mem_hopsFrom.mp hh
  obtain ⟨source_ne, n, hn, source_eq, source_has⟩ := hg.source_column e he
  obtain ⟨target_ne, m, hm, target_eq, target_has⟩ := hg.target_column e he
  have source_names : g.NamesColumn e.source e.sourceColumn :=
    ⟨source_ne, n, source_eq ▸ node?_of_mem hg hn, source_has⟩
  have target_names : g.NamesColumn e.target e.targetColumn :=
    ⟨target_ne, m, target_eq ▸ node?_of_mem hg hm, target_has⟩
  rcases cases_e with ⟨rfl, rfl⟩ | ⟨rfl, rfl⟩
  · exact ⟨source_names, target_names, fun loop => hg.no_loop e he loop.symm⟩
  · exact ⟨target_names, source_names, hg.no_loop e he⟩

end SchemaGraph

/-! ## Grown joins -/

/-- A join that may follow the given ones. -/
structure Fits (g : SchemaGraph) (s : Source Query) (joins : List (Join Query)) (j : Join Query) :
    Prop where
  source_mem : j.sourceTable ∈ s.table :: joins.map (·.targetTable)
  target_new : j.targetTable ∉ s.table :: joins.map (·.targetTable)
  alias_new : j.targetAlias ∉ s.aliasName :: joins.map (·.targetAlias)
  source_column : g.NamesColumn j.sourceTable j.sourceColumn
  target_column : g.NamesColumn j.targetTable j.targetColumn
  condition : j.condition = none
  subquery : j.subquery = none
  subqueryAlias : j.subqueryAlias = none

/-- Joins that were added one by one, each fitting those before it. -/
inductive Grown (g : SchemaGraph) (s : Source Query) : List (Join Query) → Prop
  | nil : Grown g s []
  | snoc {joins : List (Join Query)} {j : Join Query} :
      Grown g s joins → Fits g s joins j → Grown g s (joins ++ [j])

namespace Grown

variable {g : SchemaGraph} {s : Source Query} {joins : List (Join Query)}

/-- No table is brought in twice, and none is the first table. -/
theorem nodup_tables (h : Grown g s joins) : (s.table :: joins.map (·.targetTable)).Nodup := by
  induction h with
  | nil => exact List.nodup_singleton _
  | snoc _ fits ih =>
    rw [List.map_append, ← List.cons_append, List.nodup_append]
    refine ⟨ih, List.nodup_singleton _, ?_⟩
    rintro a ha b hb rfl
    obtain rfl := List.mem_singleton.mp hb
    exact fits.target_new ha

end Grown

/-! ## Joins of hops -/

namespace Draft

variable {w : Workbench} {d : Draft}

@[simp] theorem advance_clauses (d : Draft) : d.advance.clauses = d.clauses := rfl

/-- The tables that the joins of a draft can start from. -/
def inScope (d : Draft) : List String :=
  d.clauses.source.table :: d.clauses.joins.map (·.targetTable)

/-- A hop from a table in scope to a new one makes a join that fits. -/
theorem fits_hopJoin (hg : w.graph.WellFormed) (named : d.clauses.source.table ≠ "")
    (grown : Grown w.graph d.clauses.source d.clauses.joins) {source : String}
    (sourceAlias : String) {h : Hop} (hs : source ∈ d.inScope)
    (hh : h ∈ hopsFrom w.graph.edges source) (new : h.target ∉ d.inScope) :
    Fits w.graph d.clauses.source d.clauses.joins (d.hopJoin source sourceAlias h) := by
  obtain ⟨source_names, target_names, _⟩ := SchemaGraph.namesColumn_of_mem_hopsFrom hg hh
  refine ⟨hs, new, ?_, source_names, target_names, rfl, rfl, rfl⟩
  have taken : d.tableAliases.map (·.2) =
      d.clauses.source.aliasName :: d.clauses.joins.map (·.targetAlias) := by
    rw [tableAliases, Clauses.tableAliases_eq named grown.nodup_tables, List.map_cons, List.map_map]
    rfl
  rw [← taken]
  exact freshAlias_not_mem h.target _

/-- A draft whose joins have grown out of those of another, all else unchanged. -/
structure Grows (w : Workbench) (d final : Draft) : Prop where
  clauses : ∃ more, final.clauses = { d.clauses with joins := d.clauses.joins ++ more }
  grown : Grown w.graph final.clauses.source final.clauses.joins

theorem Grows.refl (grown : Grown w.graph d.clauses.source d.clauses.joins) : Grows w d d :=
  ⟨⟨[], by rw [List.append_nil]⟩, grown⟩

theorem Grows.trans {mid final : Draft} (first : Grows w d mid) (second : Grows w mid final) :
    Grows w d final := by
  obtain ⟨more, hm⟩ := first.clauses
  obtain ⟨others, ho⟩ := second.clauses
  exact ⟨⟨more ++ others, by rw [ho, hm, List.append_assoc]⟩, second.grown⟩

theorem Grows.source_eq {final : Draft} (h : Grows w d final) :
    final.clauses.source = d.clauses.source := by
  obtain ⟨more, hm⟩ := h.clauses
  rw [hm]

theorem Grows.fields_eq {final : Draft} (h : Grows w d final) :
    final.clauses.fields = d.clauses.fields := by
  obtain ⟨more, hm⟩ := h.clauses
  rw [hm]

/-- What is in scope stays in scope. -/
theorem Grows.inScope {final : Draft} (h : Grows w d final) {table : String}
    (ht : table ∈ d.inScope) : table ∈ final.inScope := by
  obtain ⟨more, hm⟩ := h.clauses
  rw [Draft.inScope, hm, List.map_append, ← List.cons_append]
  exact List.mem_append_left _ ht

/-- Adding a join that fits is growth, and brings its target into scope. -/
theorem grows_pushJoin (grown : Grown w.graph d.clauses.source d.clauses.joins) {j : Join Query}
    (fits : Fits w.graph d.clauses.source d.clauses.joins j) :
    Grows w d (d.advance.pushJoin j) ∧ j.targetTable ∈ (d.advance.pushJoin j).inScope := by
  refine ⟨⟨⟨[j], rfl⟩, grown.snoc fits⟩, ?_⟩
  simp [inScope, pushJoin, advance]

theorem mem_inScope_of_findJoin? {table : String} {j : Join Query}
    (found : d.findJoin? table = some j) : j.targetTable = table ∧ table ∈ d.inScope := by
  have same : j.targetTable = table := by simpa using List.find?_some found
  refine ⟨same, List.mem_cons_of_mem _ (List.mem_map.mpr ⟨j, ?_, same⟩)⟩
  exact List.mem_of_find?_eq_some found

theorem not_mem_of_findJoin?_eq_none {table : String} (missing : d.findJoin? table = none) :
    table ∉ d.clauses.joins.map (·.targetTable) := by
  intro there
  obtain ⟨j, hj, rfl⟩ := List.mem_map.mp there
  exact List.find?_eq_none.mp missing j hj (beq_self_eq_true _)

/-- Joining the hops from a table in scope on is growth, and brings all their tables into scope.
None of the hops may lead back to the first table, which no join brings in. -/
theorem grows_joinHops (hg : w.graph.WellFormed) {hops : List Hop} :
    ∀ {source : String} (sourceAlias : String) {d : Draft}, d.clauses.source.table ≠ "" →
    Grown w.graph d.clauses.source d.clauses.joins → source ∈ d.inScope →
    Linked w.graph.edges source hops → (∀ h ∈ hops, h.target ≠ d.clauses.source.table) →
    Grows w d (joinHops source sourceAlias hops d).1 ∧
      ∀ h ∈ hops, h.target ∈ (joinHops source sourceAlias hops d).1.inScope := by
  induction hops with
  | nil =>
    intro source sourceAlias d _ grown _ _ _
    exact ⟨.refl grown, fun _ h => absurd h List.not_mem_nil⟩
  | cons h rest ih =>
    intro source sourceAlias d named grown hs ⟨hh, linked⟩ away
    rw [joinHops]
    cases found : d.findJoin? h.target with
    | some j =>
      obtain ⟨same, there⟩ := mem_inScope_of_findJoin? found
      obtain ⟨grows, reached⟩ := ih j.targetAlias named grown
        (same.symm ▸ there) (same.symm ▸ linked) fun k hk => away k (List.mem_cons_of_mem _ hk)
      refine ⟨grows, fun k hk => ?_⟩
      rcases List.mem_cons.mp hk with rfl | hk
      · exact grows.inScope there
      · exact reached k hk
    | none =>
      have new : h.target ∉ d.inScope := by
        rw [inScope, List.mem_cons, not_or]
        exact ⟨away h (List.mem_cons_self ..), not_mem_of_findJoin?_eq_none found⟩
      obtain ⟨first, arrived⟩ :=
        grows_pushJoin grown (fits_hopJoin hg named grown sourceAlias hs hh new)
      obtain ⟨grows, reached⟩ := ih (d.hopJoin source sourceAlias h).targetAlias
        (d := d.advance.pushJoin (d.hopJoin source sourceAlias h)) named first.grown arrived linked
        fun k hk => away k (List.mem_cons_of_mem _ hk)
      refine ⟨first.trans grows, fun k hk => ?_⟩
      rcases List.mem_cons.mp hk with rfl | hk
      · exact grows.inScope arrived
      · exact reached k hk

/-- Joining the best path from the first table is growth, and brings the goal into scope. -/
theorem grows_joinPath (hg : w.graph.WellFormed) (named : d.clauses.source.table ≠ "")
    (grown : Grown w.graph d.clauses.source d.clauses.joins) {goal : String} {p : JoinPath}
    (hp : w.bestPath? d.clauses.source.table goal = some p) :
    Grows w d (d.joinPath d.clauses.source.table p).1 ∧
      goal ∈ (d.joinPath d.clauses.source.table p).1.inScope := by
  obtain ⟨hne, n, _, sound⟩ := JoinPath.exists_trail_of_mem_search (List.mem_of_head? hp)
  have away : ∀ h ∈ p.hops, h.target ≠ d.clauses.source.table := by
    intro h hh back
    exact (List.nodup_cons.mp sound.simple).1 (List.mem_map.mpr ⟨h, hh, back⟩)
  obtain ⟨grows, reached⟩ := grows_joinHops hg (d.tableAlias d.clauses.source.table) named grown
    (List.mem_cons_self ..) sound.chain.linked away
  refine ⟨grows, ?_⟩
  rcases sound.chain.eq_or_mem with back | ⟨h, hh, rfl⟩
  · exact absurd back.symm hne
  · exact reached h hh

/-- Reaching for a table is growth, and brings it into scope if there is a path to it. -/
theorem grows_reach (hg : w.graph.WellFormed) (named : d.clauses.source.table ≠ "")
    (grown : Grown w.graph d.clauses.source d.clauses.joins) (table : String) :
    Grows w d (d.reach w table).1 ∧
      (table ∈ (d.reach w table).1.inScope ∨
        w.bestPath? d.clauses.source.table table = none) := by
  rw [reach]
  split
  · rename_i there
    have in_scope : table ∈ d.inScope := by
      have key : table ∈ d.tableAliases.map (·.1) := by simpa [named, tables] using there
      exact (Clauses.mem_keys_tableAliases named).mp key
    exact ⟨.refl grown, Or.inl in_scope⟩
  · cases found : w.bestPath? d.clauses.source.table table with
    | some p =>
      obtain ⟨grows, arrived⟩ := grows_joinPath hg named grown found
      exact ⟨grows, Or.inl arrived⟩
    | none => exact ⟨.refl grown, Or.inr rfl⟩

/-- An edge between two tables, turned so that it starts at the first. -/
theorem hop_of_mem_edgesBetween {e : Edge} {a b : String} (he : e ∈ w.graph.edgesBetween a b) :
    (if e.source = a then e.forward else e.backward) ∈ hopsFrom w.graph.edges a ∧
      (if e.source = a then e.forward else e.backward).target = b := by
  obtain ⟨mem, connects⟩ := List.mem_filter.mp he
  have ends : (e.source = a ∧ e.target = b) ∨ (e.source = b ∧ e.target = a) := by
    simpa [Edge.connects] using connects
  split
  · rename_i at_source
    refine ⟨mem_hopsFrom.mpr ⟨e, mem, Or.inl ⟨at_source, rfl⟩⟩, ?_⟩
    rcases ends with ⟨_, ht⟩ | ⟨hs, ht⟩
    · exact ht
    · exact ht.trans (at_source.symm.trans hs)
  · rename_i not_at_source
    rcases ends with ⟨hs, _⟩ | ⟨hs, ht⟩
    · exact absurd hs not_at_source
    · exact ⟨mem_hopsFrom.mpr ⟨e, mem, Or.inr ⟨ht, rfl⟩⟩, hs⟩

/-- Joining a table from the first one is growth. -/
theorem grows_addJoin (hg : w.graph.WellFormed) (named : d.clauses.source.table ≠ "")
    (grown : Grown w.graph d.clauses.source d.clauses.joins) (target : String)
    {source : Option String} (default : Sql.given source = none) :
    Grows w d (d.addJoin w target source).1 := by
  rw [addJoin, default, Option.getD_none]
  split
  · exact .refl grown
  · rename_i missing
    have absent : d.findJoin? target = none := by simpa [named] using missing
    split
    · rename_i e rest between
      have he : e ∈ w.graph.edgesBetween d.clauses.source.table target := by
        rw [between]
        exact List.mem_cons_self ..
      obtain ⟨hh, rfl⟩ := hop_of_mem_edgesBetween he
      obtain ⟨_, _, other⟩ := SchemaGraph.namesColumn_of_mem_hopsFrom hg hh
      refine (grows_pushJoin grown (fits_hopJoin hg named grown _ (List.mem_cons_self ..) hh ?_)).1
      rw [inScope, List.mem_cons, not_or]
      exact ⟨other, not_mem_of_findJoin?_eq_none absent⟩
    · split
      · rename_i p found
        exact (grows_joinPath hg named grown found).1
      · exact .refl grown

end Draft

end QueryWorkbench
