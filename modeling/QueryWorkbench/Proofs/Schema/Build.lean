/-
QueryWorkbench.Proofs.Schema.Build — graphs that are built from catalogs are well-formed.

Building a graph gives every table and every view its node and an id of its own to every edge, and
both ends of an edge are nodes (`build_wellBuilt`).

## How the proof goes

An edge is made for a foreign key or for a view. That of a foreign key has ends that are looked up
among the nodes (`ends_of_edge?`). That of a view is made for each of the joins that the analysis of
its definition reports, whatever the definition says, and `isViewEdge_of_viewEdge?` says once what
it is like: it starts at a column of the view and ends at a column of a table. Which of the ways to
look for a column was taken does not matter then (`exists_viewEdges`, `exists_allViewEdges`). Of
edges with one id the first is kept, which makes the ids different and adds nothing
(`nodup_ids_firstById`, `mem_of_mem_firstById`).

## The side condition

The settings of the analysis can be read. They are read from the environment only when a view has a
definition to be analysed, and one that is no number makes building fail.

Nothing is asked of the catalog. Names may clash, repeat or be unknown, and a definition may be any
text, also one that is too long to be analysed. `clashing` has some of this.
-/
import QueryWorkbench.Schema.Build

namespace QueryWorkbench.Schema

/-! ## Names of nodes and columns -/

/-- A name refers to one of the ids or to none. -/
theorem mem_of_resolve? {ids : List String} {name id : String} (h : resolve? ids name = some id) :
    id ∈ ids := by
  rw [resolve?] at h
  split at h
  · rename_i known
    exact Option.some.inj h ▸ known
  · exact List.mem_of_find?_eq_some h

theorem exists_of_columnNamed? {columns : List Column} {name found : String}
    (h : columnNamed? columns name = some found) : ∃ x ∈ columns, x.name = found := by
  obtain ⟨x, hx, same⟩ := Option.map_eq_some_iff.mp h
  exact ⟨x, List.mem_reverse.mp (List.mem_of_find?_eq_some hx), same⟩

theorem exists_of_columnOfEither? {columns : List Column} {first second found : String}
    (h : columnOfEither? columns first second = some found) : ∃ x ∈ columns, x.name = found := by
  rcases Option.or_eq_some_iff.mp h with h | ⟨-, h⟩
  · split at h
    · cases h
    · exact exists_of_columnNamed? h
  · split at h
    · cases h
    · exact exists_of_columnNamed? h

/-! ## Edges of views -/

/-- An edge from a column of a view to a column of one of some tables. -/
structure IsViewEdge (view : ViewEntry) (tables : List Node) (e : Edge) : Prop where
  label : e.label = some "view_join"
  source : e.source = view.id
  source_column : ∃ x ∈ view.columns, x.name = e.sourceColumn
  target_column : ∃ n ∈ tables, n.id = e.target ∧ n.hasColumn e.targetColumn = true

theorem isViewEdge_of_viewEdge? {view : ViewEntry} {tables : List Node}
    {table column other : String} {e : Edge}
    (h : viewEdge? view tables table column other = some e) : IsViewEdge view tables e := by
  obtain ⟨id, -, h⟩ := Option.bind_eq_some_iff.mp h
  obtain ⟨-, -, h⟩ := Option.bind_eq_some_iff.mp h
  obtain ⟨n, found, h⟩ := Option.bind_eq_some_iff.mp h
  obtain ⟨target, named, h⟩ := Option.bind_eq_some_iff.mp h
  obtain ⟨source, exposed, h⟩ := Option.bind_eq_some_iff.mp h
  obtain rfl := Option.some.inj h
  obtain ⟨x, hx, rfl⟩ := exists_of_columnNamed? named
  have mem : n ∈ tables := List.mem_reverse.mp (List.mem_of_find?_eq_some found)
  have same : n.id = id := by simpa using List.find?_some found
  exact ⟨rfl, rfl, exists_of_columnOfEither? exposed, n, mem, same,
    List.any_eq_true.mpr ⟨x, hx, beq_self_eq_true _⟩⟩

/-! ## The first edge of each id -/

theorem mem_of_mem_firstById {seen : List String} {edges : List Edge} {e : Edge}
    (h : e ∈ firstById seen edges) : e ∈ edges ∧ e.id ∉ seen := by
  induction edges generalizing seen with
  | nil => cases h
  | cons first rest ih =>
    rw [firstById] at h
    split at h
    · obtain ⟨mem, new⟩ := ih h
      exact ⟨List.mem_cons_of_mem _ mem, new⟩
    · rename_i unseen
      rcases List.mem_cons.mp h with rfl | h
      · exact ⟨List.mem_cons_self .., unseen⟩
      · obtain ⟨mem, new⟩ := ih h
        exact ⟨List.mem_cons_of_mem _ mem, fun old => new (List.mem_cons_of_mem _ old)⟩

theorem nodup_ids_firstById (seen : List String) (edges : List Edge) :
    ((firstById seen edges).map (·.id)).Nodup := by
  induction edges generalizing seen with
  | nil => exact List.nodup_nil
  | cons first rest ih =>
    rw [firstById]
    split
    · exact ih seen
    · refine List.nodup_cons.mpr ⟨fun again => ?_, ih (first.id :: seen)⟩
      obtain ⟨e, he, same⟩ := List.mem_map.mp again
      exact (mem_of_mem_firstById he).2 (same ▸ List.mem_cons_self ..)

theorem isViewEdge_of_mem_viewEdgesOf {view : ViewEntry} {tables : List Node}
    {joins : List JoinedPair} {e : Edge} (h : e ∈ viewEdgesOf view tables joins) :
    IsViewEdge view tables e := by
  obtain ⟨j, -, h⟩ := List.mem_flatMap.mp (mem_of_mem_firstById h).1
  rcases List.mem_append.mp h with h | h
  · exact isViewEdge_of_viewEdge? (Option.mem_toList.mp h)
  · exact isViewEdge_of_viewEdge? (Option.mem_toList.mp h)

/-! ## Building -/

section

variable {env : Environment} {settings : AnalyzerSettings}
variable (read : AnalyzerSettings.read env = .ok settings)
include read

/-- With settings that can be read, the edges of a view can be told, and each is an edge to one of
the tables. -/
theorem exists_viewEdges (view : ViewEntry) (nodes : List Node) :
    ∃ edges, (viewEdges env view nodes).result = .ok edges ∧
      ∀ e ∈ edges, IsViewEdge view (nodes.filter (·.kind = .table)) e := by
  rw [viewEdges]
  split
  · exact ⟨[], rfl, fun e he => absurd he List.not_mem_nil⟩
  · rw [Analysis.Limits.choose, read]
    exact ⟨_, rfl, fun e he => isViewEdge_of_mem_viewEdgesOf he⟩

/-- The edges of several views are those of each of them. -/
theorem exists_allViewEdges (views : List ViewEntry) (nodes : List Node) :
    ∃ edges, (allViewEdges env nodes views).result = .ok edges ∧
      ∀ e ∈ edges, ∃ v ∈ views, ∃ own, (viewEdges env v nodes).result = .ok own ∧ e ∈ own := by
  induction views with
  | nil => exact ⟨[], rfl, fun e he => absurd he List.not_mem_nil⟩
  | cons v rest ih =>
    obtain ⟨own, hown, -⟩ := exists_viewEdges read v nodes
    obtain ⟨others, hothers, each⟩ := ih
    refine ⟨own ++ others, ?_, fun e he => ?_⟩
    · rw [allViewEdges, Outcome.result_bind, hown]
      show (allViewEdges env nodes rest >>= _).result = _
      rw [Outcome.result_bind, hothers]
      rfl
    · rcases List.mem_append.mp he with he | he
      · exact ⟨v, List.mem_cons_self .., own, hown, he⟩
      · obtain ⟨u, hu, found⟩ := each e he
        exact ⟨u, List.mem_cons_of_mem _ hu, found⟩

end

/-- A graph as it should come from a catalog: its nodes are the tables and then the views; every edge
has an id of its own, leads between nodes, and is made for a foreign key or for a view; and the edges
for a view lead from its columns to columns of tables. -/
structure WellBuilt (env : Environment) (c : Catalog) (g : SchemaGraph) : Prop where
  nodes : g.nodes = c.tables.map TableEntry.node ++ c.views.map ViewEntry.node
  ids_nodup : (g.edges.map (·.id)).Nodup
  ends : ∀ e ∈ g.edges, e.source ∈ g.nodeIds ∧ e.target ∈ g.nodeIds
  origin : ∀ e ∈ g.edges, (∃ k ∈ c.keys, k.edge? g.nodeIds = some e) ∨
    ∃ v ∈ c.views, ∃ own, (viewEdges env v g.nodes).result = .ok own ∧ e ∈ own
  view_edges : ∀ v ∈ c.views, ∀ own, (viewEdges env v g.nodes).result = .ok own →
    ∀ e ∈ own, IsViewEdge v (g.nodes.filter (·.kind = .table)) e

theorem ends_of_edge? {ids : List String} {k : KeyEntry} {e : Edge} (h : k.edge? ids = some e) :
    e.source ∈ ids ∧ e.target ∈ ids := by
  obtain ⟨source, hs, h⟩ := Option.bind_eq_some_iff.mp h
  obtain ⟨target, ht, h⟩ := Option.bind_eq_some_iff.mp h
  obtain rfl := Option.some.inj h
  exact ⟨mem_of_resolve? hs, mem_of_resolve? ht⟩

theorem IsViewEdge.ends {c : Catalog} {v : ViewEntry} (hv : v ∈ c.views) {e : Edge}
    (h : IsViewEdge v (c.nodes.filter (·.kind = .table)) e) :
    e.source ∈ c.nodes.map (·.id) ∧ e.target ∈ c.nodes.map (·.id) := by
  obtain ⟨n, hn, same, -⟩ := h.target_column
  have node : v.node ∈ c.nodes := List.mem_append_right _ (List.mem_map_of_mem hv)
  exact ⟨List.mem_map.mpr ⟨v.node, node, h.source.symm⟩,
    List.mem_map.mpr ⟨n, (List.mem_filter.mp hn).1, same⟩⟩

/-- Every catalog gives a well-built graph, as long as the settings of the analysis can be read. -/
theorem build_wellBuilt {env : Environment} {settings : AnalyzerSettings}
    (read : AnalyzerSettings.read env = .ok settings) (c : Catalog) :
    ∃ g, (build env c).result = .ok g ∧ WellBuilt env c g := by
  obtain ⟨ofViews, hviews, each⟩ := exists_allViewEdges read c.views c.nodes
  have edges_of_view {v : ViewEntry} {own : List Edge}
      (hown : (viewEdges env v c.nodes).result = .ok own) :
      ∀ e ∈ own, IsViewEdge v (c.nodes.filter (·.kind = .table)) e := by
    obtain ⟨edges, hedges, told⟩ := exists_viewEdges read v c.nodes
    obtain rfl : edges = own := Except.ok.inj (hedges.symm.trans hown)
    exact told
  have origin {e : Edge} (he : e ∈ firstById []
      (c.keys.filterMap (·.edge? (c.nodes.map (·.id))) ++ ofViews)) :
      (∃ k ∈ c.keys, k.edge? (c.nodes.map (·.id)) = some e) ∨
        ∃ v ∈ c.views, ∃ own, (viewEdges env v c.nodes).result = .ok own ∧ e ∈ own := by
    rcases List.mem_append.mp (mem_of_mem_firstById he).1 with he | he
    · exact Or.inl (List.mem_filterMap.mp he)
    · exact Or.inr (each e he)
  refine ⟨⟨c.nodes, firstById [] (c.keys.filterMap (·.edge? (c.nodes.map (·.id))) ++ ofViews)⟩, ?_,
    rfl, nodup_ids_firstById _ _, fun e he => ?_, fun e he => origin he,
    fun v _ own hown => edges_of_view hown⟩
  · rw [build, Outcome.result_bind]
    show (allViewEdges env c.nodes c.views >>= _).result = _
    rw [Outcome.result_bind, hviews]
    rfl
  · rcases origin he with ⟨k, -, hk⟩ | ⟨v, hv, own, hown, he⟩
    · exact ends_of_edge? hk
    · exact (edges_of_view hown e he).ends hv

/-- Two tables and a view of one name, a foreign key that is there twice, one to a table that is
unknown, and views that join the tables. -/
def clashing : Catalog where
  tables := [{ name := "orders", columns := [{ name := "customer_id" }] },
    { name := "customers", schema := some "sales", columns := [{ name := "ID" }] },
    { name := "customers", columns := [{ name := "name" }] }]
  views := [
    { name := "orders", columns := [{ name := "Customer_Id" }, { name := "id" }]
      definition := "SELECT * FROM orders o JOIN sales.customers c ON o.customer_id = c.id" },
    { name := "sales.customers" }]
  keys := [⟨"fk", "orders", "customer_id", "sales.customers", "ID"⟩,
    ⟨"fk", "orders", "customer_id", "other.customers", "ID"⟩, ⟨"gone", "orders", "x", "y", "z"⟩]

theorem build_wellBuilt_clashing :
    AnalyzerSettings.read [] = .ok {} ∧
      ∃ g, (build [] clashing).result = .ok g ∧ WellBuilt [] clashing g := by
  have read : AnalyzerSettings.read [] = .ok {} := rfl
  exact ⟨read, build_wellBuilt read clashing⟩

end QueryWorkbench.Schema
