/-
QueryWorkbench.Proofs.Schema.ViewEdges — the edges of a view over two joined tables.

Such a view compares columns of its two tables, pair by pair. The analysis of its definition relates
every two tables once, so all edges of the view are made for the first equality: its two columns
have an edge if the view exposes one of them, and the further columns of a composite key have none
(`mem_viewEdges_joinQuery`, `not_mem_viewEdges_tenantView`).

## How the proof goes

What the analysis of the definition reports is known for any names and any number of pairs
(`JoinQuery.Named.analyze_text`): one join with the columns of the first pair, or none if the alias
of the first table does not lead to it. From a join the view gets one edge for each of its columns,
at most (`viewEdgesOf_joined`), and an edge is made if the view has a column of the one name or the
other (`isSome_columnOfEither?_iff`, `viewEdge?_eq`).

## The side conditions

`IsJoinView` gathers what makes the definition a join of two tables of the graph: its text, names
that the analysis reads, and two tables whose nodes have the columns that are compared. Their ids
differ in any case of letters, or the join would relate a table to itself. The settings can be read
and admit the text. That the view has columns at all is not asked, because without any there is no
edge and it exposes nothing.
-/
import Mathlib.Data.List.Nodup
import QueryWorkbench.Proofs.Analysis.TwoTables
import QueryWorkbench.Proofs.Schema.Build

namespace QueryWorkbench.Schema

open Analysis Text

/-! ## Columns -/

theorem columnNamed?_eq_some {columns : List Column} {x : Column}
    (distinct : (columns.map fun c => lower c.name).Nodup) (hx : x ∈ columns) :
    columnNamed? columns x.name = some x.name := by
  rw [columnNamed?]
  cases found : columns.reverse.find? fun c => lower c.name == lower x.name with
  | none => exact absurd (beq_self_eq_true _) (List.find?_eq_none.mp found x (List.mem_reverse.mpr hx))
  | some y =>
    have same : lower y.name = lower x.name := by simpa using List.find?_some found
    have hy : y ∈ columns := List.mem_reverse.mp (List.mem_of_find?_eq_some found)
    rw [List.inj_on_of_nodup_map distinct hy hx same, Option.map_some]

theorem isSome_columnNamed?_iff {columns : List Column} {name : String} :
    (columnNamed? columns name).isSome ↔ ∃ x ∈ columns, lower x.name = lower name := by
  simp [columnNamed?, List.find?_isSome]

/-- Whether a view has a column with the name of one of two columns, in any case. -/
def ViewEntry.Exposes (view : ViewEntry) (p : String × String) : Prop :=
  ∃ x ∈ view.columns, lower x.name = lower p.1 ∨ lower x.name = lower p.2

theorem isSome_columnOfEither?_iff {view : ViewEntry} {p : String × String} (left : p.1 ≠ "")
    (right : p.2 ≠ "") : (columnOfEither? view.columns p.2 p.1).isSome ↔ view.Exposes p := by
  rw [columnOfEither?, if_neg left, if_neg right, Option.isSome_or, Bool.or_eq_true,
    isSome_columnNamed?_iff, isSome_columnNamed?_iff]
  constructor
  · rintro (⟨x, hx, same⟩ | ⟨x, hx, same⟩)
    · exact ⟨x, hx, Or.inr same⟩
    · exact ⟨x, hx, Or.inl same⟩
  · rintro ⟨x, hx, same | same⟩
    · exact Or.inr ⟨x, hx, same⟩
    · exact Or.inl ⟨x, hx, same⟩

/-! ## Edges -/

/-- A table that is the one found under its id, and whose columns have different names in any
case. -/
structure IsTableOf (tables : List Node) (n : Node) : Prop where
  found : tables.reverse.find? (·.id == n.id) = some n
  distinct : (n.columns.map fun c => lower c.name).Nodup

/-- The edge from a column of a view to a column of a table. -/
def ViewEntry.link (view : ViewEntry) (n : Node) (column source : String) : Edge :=
  ⟨"view_" ++ view.id ++ "_to_" ++ n.id ++ "_" ++ source ++ "_" ++ column, view.id, n.id, source,
    column, some "view_join"⟩

theorem viewEdge?_eq {view : ViewEntry} {tables : List Node} {n : Node} {column other : String}
    (table : IsTableOf tables n) (has : n.hasColumn column = true) (named : column ≠ "") :
    viewEdge? view tables n.id column other =
      (columnOfEither? view.columns other column).map (view.link n column) := by
  have known : n.id ∈ tables.map (·.id) :=
    List.mem_map_of_mem (List.mem_reverse.mp (List.mem_of_find?_eq_some table.found))
  obtain ⟨x, hx, same⟩ := List.any_eq_true.mp has
  have target : columnNamed? n.columns column = some column := by
    rw [← eq_of_beq same]
    exact columnNamed?_eq_some table.distinct hx
  have allowed : (guard (column ≠ "") : Option Unit) = some () := if_pos named
  rw [viewEdge?, resolve?, if_pos known, allowed]
  simp only [Option.bind_eq_bind, Option.bind_some, table.found, target]
  cases columnOfEither? view.columns other column <;> rfl

/-! ## Views over two tables -/

/-- A view over two joined tables: its definition compares columns of the two. -/
structure IsJoinView (view : ViewEntry) (tables : List Node) (a b : Node) (q : JoinQuery) :
    Prop where
  definition : view.definition = q.text
  named : q.Named
  left : q.left = a.id
  right : q.right = b.id
  apart : lower a.id ≠ lower b.id
  left_table : IsTableOf tables a
  right_table : IsTableOf tables b
  columns : ∀ p ∈ q.pairs, a.hasColumn p.1 = true ∧ b.hasColumn p.2 = true

section

variable {view : ViewEntry} {nodes : List Node} {a b : Node} {q : JoinQuery}

theorem viewEdgesOf_joined {tables : List Node} (h : IsJoinView view tables a b q) :
    viewEdgesOf view tables [q.joined q.first] = firstById []
      (((columnOfEither? view.columns q.first.2 q.first.1).map (view.link a q.first.1)).toList ++
        ((columnOfEither? view.columns q.first.1 q.first.2).map (view.link b q.first.2)).toList) := by
  have first : q.first ∈ q.pairs := List.mem_cons_self ..
  have names := h.named.pairs q.first first
  have left : viewEdge? view tables a.id q.first.1 q.first.2 = _ :=
    viewEdge?_eq h.left_table (h.columns _ first).1 names.1.ne_empty
  have right : viewEdge? view tables b.id q.first.2 q.first.1 = _ :=
    viewEdge?_eq h.right_table (h.columns _ first).2 names.2.ne_empty
  rw [viewEdgesOf, List.flatMap_singleton, JoinQuery.joined, h.left, h.right]
  show firstById [] ((viewEdge? view tables a.id q.first.1 q.first.2).toList ++
    (viewEdge? view tables b.id q.first.2 q.first.1).toList) = _
  rw [left, right]

/-- The definition of the view is analysed, and of its equalities the first one is used. -/
theorem result_viewEdges {env : Environment} {settings : AnalyzerSettings}
    (read : AnalyzerSettings.read env = .ok settings)
    (h : IsJoinView view (nodes.filter (·.kind = .table)) a b q)
    (short : q.text.length ≤ settings.maxLength) (some : 1 ≤ settings.maxMatches)
    (exposed : view.columns ≠ []) :
    (viewEdges env view nodes).result =
      .ok (viewEdgesOf view (nodes.filter (·.kind = .table))
        (if q.leads then [q.joined q.first] else [])) := by
  have apart : lower q.left ≠ lower q.right := by
    rw [h.left, h.right]
    exact h.apart
  have limits : Limits.choose env none none none =
      .ok ⟨settings.maxLength, settings.maxMatches, settings.maxDepth⟩ := by
    rw [Limits.choose, read]
    rfl
  obtain ⟨report, analyzed, joins⟩ := @JoinQuery.Named.analyze_text q h.named apart
    ⟨settings.maxLength, settings.maxMatches, settings.maxDepth⟩ (Int.ofNat_le.mpr short)
    (Int.ofNat_le.mpr some)
  have looked : ¬ ((trim view.definition.toList).isEmpty || view.columns.isEmpty) = true := by
    have tidy := h.named.clean.tidy
    rw [h.definition, JoinQuery.toList_text, trim_eq tidy.first tidy.last]
    simp [tidy.nonempty, exposed]
  have analysis : (analyzeValue ⟨settings.maxLength, settings.maxMatches, settings.maxDepth⟩
      (.str view.definition)).result = .ok report := by
    rw [analyzeValue, h.definition, analyzed]
  rw [viewEdges, if_neg looked, limits, ← joins, Outcome.result_bind]
  show (analyzeValue ⟨settings.maxLength, settings.maxMatches, settings.maxDepth⟩
    (.str view.definition) >>= fun report : Report =>
      pure (viewEdgesOf view (nodes.filter (·.kind = .table)) report.joins)).result = _
  rw [Outcome.result_bind, analysis]
  rfl

/-- The first equality of a view over two tables links it to the first table, if the alias of that
table leads to it and the view exposes a column of the equality. No other equality does: every edge
of the view ends at a column of the first one. -/
theorem mem_viewEdges_joinQuery {env : Environment} {settings : AnalyzerSettings}
    (read : AnalyzerSettings.read env = .ok settings)
    (h : IsJoinView view (nodes.filter (·.kind = .table)) a b q)
    (short : q.text.length ≤ settings.maxLength) (some : 1 ≤ settings.maxMatches) :
    ∃ edges, (viewEdges env view nodes).result = .ok edges ∧
      (∀ p ∈ q.pairs, (∃ e ∈ edges, e.source = view.id ∧ e.target = a.id ∧ e.targetColumn = p.1) ↔
        q.leads = true ∧ p.1 = q.first.1 ∧ view.Exposes q.first) ∧
      ∀ e ∈ edges, (e.target = a.id ∧ e.targetColumn = q.first.1) ∨
        (e.target = b.id ∧ e.targetColumn = q.first.2) := by
  by_cases exposed : view.columns = []
  · have hidden : ¬ view.Exposes q.first := by
      rintro ⟨x, hx, -⟩
      rw [exposed] at hx
      cases hx
    refine ⟨[], ?_, fun p _ => by simp [hidden], fun e he => absurd he List.not_mem_nil⟩
    rw [viewEdges, if_pos (by simp [exposed])]
    rfl
  refine ⟨_, result_viewEdges read h short some exposed, ?_⟩
  have names := h.named.pairs q.first (List.mem_cons_self ..)
  have apart : a.id ≠ b.id := fun same => h.apart (congrArg lower same)
  cases leads : q.leads with
  | false =>
    exact ⟨fun p _ => by simp [viewEdgesOf, firstById], fun e he => absurd he List.not_mem_nil⟩
  | true =>
    rw [if_pos rfl, viewEdgesOf_joined h]
    refine ⟨fun p _ => ⟨?_, ?_⟩, fun e he => ?_⟩
    · rintro ⟨e, he, -, target, column⟩
      rcases List.mem_append.mp (mem_of_mem_firstById he).1 with he | he
      · obtain ⟨source, shown, rfl⟩ := Option.map_eq_some_iff.mp (Option.mem_toList.mp he)
        exact ⟨rfl, column.symm, (isSome_columnOfEither?_iff names.1.ne_empty names.2.ne_empty).mp
          (Option.isSome_of_eq_some shown)⟩
      · obtain ⟨source, -, rfl⟩ := Option.map_eq_some_iff.mp (Option.mem_toList.mp he)
        exact absurd target.symm apart
    · rintro ⟨-, column, shows⟩
      obtain ⟨source, shown⟩ := Option.isSome_iff_exists.mp
        ((isSome_columnOfEither?_iff names.1.ne_empty names.2.ne_empty).mpr shows)
      refine ⟨view.link a q.first.1 source, ?_, rfl, rfl, column.symm⟩
      rw [shown, firstById.eq_def]
      exact List.mem_cons_self ..
    · rcases List.mem_append.mp (mem_of_mem_firstById he).1 with he | he
      · obtain ⟨source, -, rfl⟩ := Option.map_eq_some_iff.mp (Option.mem_toList.mp he)
        exact Or.inl ⟨rfl, rfl⟩
      · obtain ⟨source, -, rfl⟩ := Option.map_eq_some_iff.mp (Option.mem_toList.mp he)
        exact Or.inr ⟨rfl, rfl⟩

end

/-- Orders of customers, both with the tenant that they belong to. -/
def tenantOrders : Node where
  id := "orders"
  label := "orders"
  columns := [{ name := "tenant_id" }, { name := "customer_id" }]

def tenantCustomers : Node where
  id := "customers"
  label := "customers"
  columns := [{ name := "tenant" }, { name := "id" }]

/-- The join of the two on the whole key. -/
def tenantJoin : JoinQuery where
  left := "orders"
  leftAlias := "o"
  right := "customers"
  rightAlias := "c"
  first := ("tenant_id", "tenant")
  more := [("customer_id", "id")]

/-- A view with that definition, which exposes columns of both equalities. -/
def tenantView : ViewEntry where
  name := "v"
  definition := tenantJoin.text
  columns := [{ name := "tenant_id" }, { name := "customer_id" }]

theorem isJoinView_tenantView : IsJoinView tenantView
    ([tenantOrders, tenantCustomers].filter (·.kind = .table)) tenantOrders tenantCustomers
    tenantJoin := by
  have named : tenantJoin.Named := by
    refine ⟨?_, ?_, ?_, ?_, ?_⟩ <;> decide +kernel
  exact ⟨rfl, named, rfl, rfl, by decide +kernel, ⟨by decide +kernel, by decide +kernel⟩,
    ⟨by decide +kernel, by decide +kernel⟩, by decide +kernel⟩

theorem mem_viewEdges_joinQuery_tenantView :
    AnalyzerSettings.read [] = .ok {} ∧
      IsJoinView tenantView ([tenantOrders, tenantCustomers].filter (·.kind = .table)) tenantOrders
        tenantCustomers tenantJoin ∧
      ∃ edges, (viewEdges [] tenantView [tenantOrders, tenantCustomers]).result = .ok edges ∧
        (∀ p ∈ tenantJoin.pairs, (∃ e ∈ edges, e.source = tenantView.id ∧
            e.target = tenantOrders.id ∧ e.targetColumn = p.1) ↔
          tenantJoin.leads = true ∧ p.1 = tenantJoin.first.1 ∧
            tenantView.Exposes tenantJoin.first) ∧
        ∀ e ∈ edges, (e.target = tenantOrders.id ∧ e.targetColumn = tenantJoin.first.1) ∨
          (e.target = tenantCustomers.id ∧ e.targetColumn = tenantJoin.first.2) := by
  have read : AnalyzerSettings.read [] = .ok {} := rfl
  exact ⟨read, isJoinView_tenantView, mem_viewEdges_joinQuery read isJoinView_tenantView
    (by decide +kernel) (by decide)⟩

/-- The second equality of the view has no edge to its table, although the view exposes a column of
it. -/
theorem not_mem_viewEdges_tenantView :
    IsJoinView tenantView ([tenantOrders, tenantCustomers].filter (·.kind = .table)) tenantOrders
        tenantCustomers tenantJoin ∧ tenantJoin.leads = true ∧
      ∃ p ∈ tenantJoin.pairs, tenantView.Exposes p ∧
        ∃ edges, (viewEdges [] tenantView [tenantOrders, tenantCustomers]).result = .ok edges ∧
          ∀ e ∈ edges, e.target = tenantOrders.id → e.targetColumn ≠ p.1 := by
  refine ⟨isJoinView_tenantView, by decide +kernel, ("customer_id", "id"),
    List.mem_cons_of_mem _ (List.mem_cons_self ..), ⟨{ name := "customer_id" }, ?_, Or.inl rfl⟩, _,
    result_viewEdges rfl isJoinView_tenantView (by decide +kernel) (by decide) nofun, ?_⟩
  · decide
  · decide +kernel

end QueryWorkbench.Schema
