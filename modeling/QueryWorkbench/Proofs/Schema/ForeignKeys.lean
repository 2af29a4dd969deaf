/-
QueryWorkbench.Proofs.Schema.ForeignKeys — which foreign keys have an edge in the graph.

Of edges with one id a graph keeps the first, and the id of a foreign key's edge is a text put
together from its name and its two columns. Different foreign keys can share that text
(`not_relates_build_audited`). `relates_build_iff` says when the columns that a foreign key relates
are related in the graph, and which edge the graph has under its id.

## How the proof goes

The edges of a graph are those of its foreign keys and behind them those of its views, filtered by
their ids (`exists_build`). An edge is kept exactly if it is the first one with its id
(`mem_firstById_iff`, by induction on the edges for any ids that were seen before). Whether two
columns are related is asked of edges in either direction and under any id (`Edge.Alike`), so the
first part of the theorem looks for an edge like that of the key which is the first one with its own
id. The edges of keys come before those of views, so the edge under the id of a key is the edge of a
key.

## The side condition

The settings of the analysis can be read, without which there is no graph. The catalog is arbitrary.
A foreign key of a table that is not there has no edge to begin with (`KeyEntry.edge?`), and the
theorem says nothing of it.
-/
import QueryWorkbench.Proofs.Schema.Build

namespace QueryWorkbench

/-- Two edges between the same columns of the same nodes. -/
def Edge.Alike (e f : Edge) : Prop :=
  e.source = f.source ∧ e.target = f.target ∧ e.sourceColumn = f.sourceColumn ∧
    e.targetColumn = f.targetColumn

instance (e f : Edge) : Decidable (e.Alike f) :=
  inferInstanceAs (Decidable (_ ∧ _ ∧ _ ∧ _))

namespace Schema

/-- What is kept of some edges are those that come first under their ids. -/
theorem mem_firstById_iff {seen : List String} {edges : List Edge} {e : Edge} :
    e ∈ firstById seen edges ↔ e.id ∉ seen ∧ edges.find? (·.id == e.id) = some e := by
  induction edges generalizing seen with
  | nil => simp [firstById]
  | cons first rest ih =>
    rw [firstById, List.find?_cons]
    by_cases same : first.id = e.id
    · simp only [same, beq_self_eq_true, Option.some.injEq]
      by_cases known : e.id ∈ seen
      · rw [if_pos known, ih]
        exact ⟨fun h => absurd known h.1, fun h => absurd known h.1⟩
      · rw [if_neg known, List.mem_cons, ih]
        constructor
        · rintro (rfl | ⟨new, -⟩)
          · exact ⟨known, rfl⟩
          · exact absurd (List.mem_cons_self ..) new
        · rintro ⟨-, rfl⟩
          exact Or.inl rfl
    · have other : (first.id == e.id) = false := beq_eq_false_iff_ne.mpr same
      have differs : e ≠ first := fun h => same (congrArg Edge.id h.symm)
      simp only [other]
      split
      · exact ih
      · rw [List.mem_cons, ih, List.mem_cons, not_or]
        constructor
        · rintro (rfl | ⟨⟨-, new⟩, found⟩)
          · exact absurd rfl differs
          · exact ⟨new, found⟩
        · rintro ⟨new, found⟩
          exact Or.inr ⟨⟨Ne.symm same, new⟩, found⟩

/-- An edge has another one of its id in front, or is the first of its id. -/
theorem exists_find?_id {edges : List Edge} {e : Edge} (he : e ∈ edges) :
    ∃ f, f.id = e.id ∧ edges.find? (·.id == e.id) = some f := by
  cases found : edges.find? (·.id == e.id) with
  | none => exact absurd (beq_self_eq_true e.id) (List.find?_eq_none.mp found e he)
  | some f => exact ⟨f, by simpa using List.find?_some found, rfl⟩

/-- The edges that a graph is made from: those of the foreign keys, and behind them those of the
views. -/
theorem exists_build {env : Environment} {settings : AnalyzerSettings}
    (read : AnalyzerSettings.read env = .ok settings) (c : Catalog) :
    ∃ g ofViews, (build env c).result = .ok g ∧
      (allViewEdges env g.nodes c.views).result = .ok ofViews ∧
      g.edges = firstById [] (c.keys.filterMap (·.edge? g.nodeIds) ++ ofViews) := by
  obtain ⟨ofViews, hviews, -⟩ := exists_allViewEdges read c.views c.nodes
  refine ⟨⟨c.nodes, firstById [] (c.keys.filterMap (·.edge? (c.nodes.map (·.id))) ++ ofViews)⟩,
    ofViews, ?_, hviews, rfl⟩
  rw [build, Outcome.result_bind]
  show (allViewEdges env c.nodes c.views >>= _).result = _
  rw [Outcome.result_bind, hviews]
  rfl

/-- A graph relates the columns of a foreign key between two nodes exactly when some edge between
them is the first of its id among all edges of keys and views. Under the id of the key itself the
graph has the edge of the first key with that id, whatever columns that one relates. -/
theorem relates_build_iff {env : Environment} {settings : AnalyzerSettings}
    (read : AnalyzerSettings.read env = .ok settings) (c : Catalog) :
    ∃ g ofViews, (build env c).result = .ok g ∧
      (allViewEdges env g.nodes c.views).result = .ok ofViews ∧
      ∀ k ∈ c.keys, ∀ e, k.edge? g.nodeIds = some e →
        ((∃ f ∈ g.edges, f.Alike e) ↔ ∃ f, f.Alike e ∧
          (c.keys.filterMap (·.edge? g.nodeIds) ++ ofViews).find? (·.id == f.id) = some f) ∧
        ∃ f ∈ g.edges, f.id = e.id ∧
          (c.keys.filterMap (·.edge? g.nodeIds)).find? (·.id == e.id) = some f := by
  obtain ⟨g, ofViews, built, views, edges⟩ := exists_build read c
  refine ⟨g, ofViews, built, views, fun k hk e he => ⟨?_, ?_⟩⟩
  · simp only [edges, mem_firstById_iff, List.not_mem_nil, not_false_eq_true, true_and]
    exact exists_congr fun f => and_comm
  · obtain ⟨f, same, first⟩ := exists_find?_id (List.mem_filterMap.mpr ⟨k, hk, he⟩)
    refine ⟨f, ?_, same, first⟩
    rw [edges, mem_firstById_iff, same, List.find?_append, first]
    exact ⟨List.not_mem_nil, rfl⟩

/-- Orders and audits of users: the names and columns of the two foreign keys make one id. -/
def audited : Catalog where
  tables := [{ name := "users", columns := [{ name := "id" }] },
    { name := "orders", columns := [{ name := "user_id" }] },
    { name := "audits", columns := [{ name := "id" }] }]
  keys := [⟨"order", "orders", "user_id", "users", "id"⟩,
    ⟨"order_user", "audits", "id", "users", "id"⟩]

theorem relates_build_iff_audited :
    AnalyzerSettings.read [] = .ok {} ∧
      ∃ g ofViews, (build [] audited).result = .ok g ∧
        (allViewEdges [] g.nodes audited.views).result = .ok ofViews ∧
        ∀ k ∈ audited.keys, ∀ e, k.edge? g.nodeIds = some e →
          ((∃ f ∈ g.edges, f.Alike e) ↔ ∃ f, f.Alike e ∧
            (audited.keys.filterMap (·.edge? g.nodeIds) ++ ofViews).find? (·.id == f.id) = some f) ∧
          ∃ f ∈ g.edges, f.id = e.id ∧
            (audited.keys.filterMap (·.edge? g.nodeIds)).find? (·.id == e.id) = some f := by
  have read : AnalyzerSettings.read [] = .ok {} := rfl
  exact ⟨read, relates_build_iff read audited⟩

/-- The second of two foreign keys with one id is lost, although both its tables are nodes. -/
theorem not_relates_build_audited :
    ∃ g, (build [] audited).result = .ok g ∧
      ∃ k ∈ audited.keys, ∃ e, k.edge? g.nodeIds = some e ∧ ∀ f ∈ g.edges, ¬ f.Alike e := by
  refine ⟨⟨audited.nodes, firstById [] (audited.keys.filterMap
    (·.edge? (audited.nodes.map (·.id))) ++ [])⟩, rfl, ⟨"order_user", "audits", "id", "users", "id"⟩,
    by decide, ⟨"fk_order_user_id_id", "audits", "users", "id", "id", some "order_user"⟩, ?_, ?_⟩
  · decide +kernel
  · decide +kernel

end Schema

end QueryWorkbench
