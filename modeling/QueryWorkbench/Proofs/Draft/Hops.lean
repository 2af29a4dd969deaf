/-
QueryWorkbench.Proofs.Draft.Hops — columns and joins lead along the edges of a graph.

Whatever the nodes of a graph are, if no edge leads from a table to itself then selecting a column,
or joining a table from the base table, adds joins of hops only: each goes from a table that is
there, under the alias that it has, to one that is not. `Led` says so of two drafts (`led_reach`,
`led_addJoin`), and `Routed` collects what it comes to after any number of hops: no table is brought
in twice, all aliases are new ones and different, and every join is the join of a hop.
-/
import QueryWorkbench.Proofs.Draft.AliasReuse
import QueryWorkbench.Proofs.Draft.Growth

namespace QueryWorkbench

/-- A graph none of whose edges leads from a table to itself. -/
def SchemaGraph.Loopless (g : SchemaGraph) : Prop := ∀ e ∈ g.edges, e.source ≠ e.target

theorem SchemaGraph.Loopless.target_ne {g : SchemaGraph} (h : g.Loopless) {table : String}
    {hop : Hop} (hh : hop ∈ hopsFrom g.edges table) : hop.target ≠ table := by
  obtain ⟨e, he, ⟨rfl, rfl⟩ | ⟨rfl, rfl⟩⟩ := mem_hopsFrom.mp hh
  · exact (h e he).symm
  · exact h e he

namespace Draft

variable {w : Workbench} {d mid final : Draft}

/-! ## Hops -/

/-- A draft that comes from another by joins along edges, each from a table that is there under its
alias to a table that is not. -/
inductive Led (w : Workbench) (d : Draft) : Draft → Prop
  | refl : Led w d d
  | hop {mid : Draft} {source sourceAlias : String} {h : Hop} : Led w d mid →
      (source, sourceAlias) ∈ mid.brought → h ∈ hopsFrom w.graph.edges source →
      h.target ∉ mid.inScope → Led w d (mid.advance.pushJoin (mid.hopJoin source sourceAlias h))

theorem Led.trans (first : Led w d mid) (second : Led w mid final) : Led w d final := by
  induction second with
  | refl => exact first
  | hop _ there edge new ih => exact ih.hop there edge new

theorem Led.joined (h : Led w d final) : Joined d final := by
  induction h with
  | refl => exact .refl
  | @hop mid _ _ h _ _ _ _ ih =>
    exact .push (.advance ih) (freshAlias_not_mem_tableAliases mid h.target)

theorem map_fst_brought (d : Draft) : d.brought.map (·.1) = d.inScope := by
  simp [brought, inScope, Function.comp_def]

theorem target_mem {j : Join Query} (hj : j ∈ d.clauses.joins) :
    (j.targetTable, j.targetAlias) ∈ d.brought :=
  List.mem_cons_of_mem _ (List.mem_map.mpr ⟨j, hj, rfl⟩)

/-- Joining the hops from a table that is there leads along them. None of the hops may lead back to
the base table, which no join brings in. -/
theorem led_joinHops {hops : List Hop} :
    ∀ {source sourceAlias : String} {d : Draft}, (source, sourceAlias) ∈ d.brought →
    Linked w.graph.edges source hops → (∀ h ∈ hops, h.target ≠ d.clauses.source.table) →
    Led w d (joinHops source sourceAlias hops d).1 := by
  induction hops with
  | nil => exact fun _ _ _ => .refl
  | cons h rest ih =>
    intro source sourceAlias d there ⟨edge, linked⟩ away
    have onward : ∀ k ∈ rest, k.target ≠ d.clauses.source.table := fun k hk =>
      away k (List.mem_cons_of_mem _ hk)
    rw [joinHops]
    cases found : d.findJoin? h.target with
    | some j =>
      -- No join is made, and the path goes on under the alias of the join that is there.
      obtain ⟨same, -⟩ := mem_inScope_of_findJoin? found
      exact ih (target_mem (List.mem_of_find?_eq_some found)) (same.symm ▸ linked) onward
    | none =>
      have new : h.target ∉ d.inScope := by
        rw [inScope, List.mem_cons, not_or]
        exact ⟨away h (List.mem_cons_self ..), not_mem_of_findJoin?_eq_none found⟩
      have first : Led w d (d.advance.pushJoin (d.hopJoin source sourceAlias h)) :=
        .hop .refl there edge new
      have reached : (h.target, d.freshAlias h.target) ∈
          (d.advance.pushJoin (d.hopJoin source sourceAlias h)).brought := by
        rw [brought_pushJoin]
        exact List.mem_append_right _ (List.mem_singleton_self _)
      exact first.trans (ih reached linked onward)

/-- Joining the best path from the base table leads along it. -/
theorem led_joinPath {base goal : String} (same : d.clauses.source.table = base)
    (there : (base, d.tableAlias base) ∈ d.brought) {p : JoinPath}
    (hp : w.bestPath? base goal = some p) : Led w d (d.joinPath base p).1 := by
  obtain ⟨-, n, -, sound⟩ := JoinPath.exists_trail_of_mem_search (List.mem_of_head? hp)
  refine led_joinHops there sound.chain.linked fun h hh back => ?_
  exact (List.nodup_cons.mp sound.simple).1 (List.mem_map.mpr ⟨h, hh, back.trans same⟩)

/-! ## Drafts after hops -/

/-- A draft with a base table and with joins of hops: no table is there twice, no alias is, each
alias was made for its table, and each join starts from a table under its alias. -/
structure Routed (w : Workbench) (d : Draft) : Prop where
  named : d.clauses.source.table ≠ ""
  tables : d.inScope.Nodup
  aliases : (d.brought.map (·.2)).Nodup
  fresh : ∀ e ∈ d.brought, ∃ taken, e.2 = QueryWorkbench.freshAlias e.1 taken
  joins : ∀ j ∈ d.clauses.joins, ∃ mid source sourceAlias, ∃ h ∈ hopsFrom w.graph.edges source,
    (source, sourceAlias) ∈ d.brought ∧ j = hopJoin mid source sourceAlias h

namespace Routed

/-- While no table is there twice every table goes by the alias that it came with. -/
theorem tableAliases_eq (h : Routed w d) : d.tableAliases = d.brought :=
  Clauses.tableAliases_eq h.named h.tables

/-- The base table is there under its alias. -/
theorem base_mem (h : Routed w d) :
    (d.clauses.source.table, d.tableAlias d.clauses.source.table) ∈ d.brought := by
  obtain ⟨taken, made⟩ := h.fresh (d.clauses.source.table, d.clauses.source.aliasName)
    (List.mem_cons_self ..)
  have given : d.clauses.source.aliasName ≠ "" := fun empty =>
    freshAlias_ne_empty _ taken (made.symm.trans empty)
  have found : Assoc.get? d.clauses.source.table d.tableAliases =
      some d.clauses.source.aliasName := by
    rw [h.tableAliases_eq, brought, Assoc.get?, if_pos rfl]
  rw [tableAlias, aliasOr_of_get? found given]
  exact List.mem_cons_self ..

theorem hop (h : Routed w d) {source sourceAlias : String} {hop : Hop}
    (there : (source, sourceAlias) ∈ d.brought) (edge : hop ∈ hopsFrom w.graph.edges source)
    (new : hop.target ∉ d.inScope) :
    Routed w (d.advance.pushJoin (d.hopJoin source sourceAlias hop)) := by
  have brought_eq : (d.advance.pushJoin (d.hopJoin source sourceAlias hop)).brought =
      d.brought ++ [(hop.target, d.freshAlias hop.target)] := brought_pushJoin ..
  have unused : d.freshAlias hop.target ∉ d.brought.map (·.2) :=
    h.tableAliases_eq ▸ freshAlias_not_mem_tableAliases d hop.target
  refine ⟨h.named, ?_, ?_, ?_, ?_⟩
  · rw [← map_fst_brought, brought_eq, List.map_append, List.map_singleton, map_fst_brought]
    exact h.tables.append (List.nodup_singleton _) (List.disjoint_singleton.mpr new)
  · rw [brought_eq, List.map_append, List.map_singleton]
    exact h.aliases.append (List.nodup_singleton _) (List.disjoint_singleton.mpr unused)
  · intro e he
    rw [brought_eq, List.mem_append, List.mem_singleton] at he
    rcases he with he | rfl
    · exact h.fresh e he
    · exact ⟨_, rfl⟩
  · intro j hj
    rw [brought_eq]
    rcases List.mem_append.mp hj with hj | hj
    · obtain ⟨mid, from_, fromAlias, k, hk, was, same⟩ := h.joins j hj
      exact ⟨mid, from_, fromAlias, k, hk, List.mem_append_left _ was, same⟩
    · obtain rfl := List.mem_singleton.mp hj
      exact ⟨d, source, sourceAlias, hop, edge, List.mem_append_left _ there, rfl⟩

theorem led (h : Routed w d) (led : Led w d final) : Routed w final := by
  induction led with
  | refl => exact h
  | hop _ there edge new ih => exact ih.hop there edge new

/-- Every join starts from a table that is there, under its alias. -/
theorem source_mem (h : Routed w d) {j : Join Query} (hj : j ∈ d.clauses.joins) :
    (j.sourceTable, j.sourceAlias) ∈ d.brought := by
  obtain ⟨mid, source, sourceAlias, k, -, there, same⟩ := h.joins j hj
  rw [same]
  exact there

/-- No two joins relate the same tables. -/
theorem nodup_pairs (h : Routed w d) : (d.clauses.joins.map Join.pair).Nodup := by
  have targets : ((d.clauses.joins.map Join.pair).map Prod.snd).Nodup := by
    rw [List.map_map]
    exact (List.nodup_cons.mp h.tables).2
  exact targets.of_map _

end Routed

/-! ## Actions -/

theorem routed_setBaseTable {table : String} (named : table ≠ "") :
    Routed w (d.perform w (.setBaseTable table)).draft := by
  have alone : (d.perform w (.setBaseTable table)).draft.brought =
      [(table, QueryWorkbench.freshAlias table [])] := rfl
  refine ⟨named, List.nodup_singleton _, List.nodup_singleton _, fun e he => ?_, fun j hj => ?_⟩
  · rw [alone] at he
    obtain rfl := List.mem_singleton.mp he
    exact ⟨[], rfl⟩
  · cases hj

/-- Reaching for a table leads along hops. -/
theorem led_reach (h : Routed w d) (table : String) : Led w d (d.reach w table).1 := by
  rw [reach]
  split
  · exact .refl
  · split
    · rename_i found
      exact led_joinPath rfl h.base_mem found
    · exact .refl

/-- Joining a table from the base table leads along hops. -/
theorem led_addJoin (loopless : w.graph.Loopless) (h : Routed w d) (target : String)
    {source : Option String} (default : Sql.given source = none) :
    Led w d (d.addJoin w target source).1 := by
  rw [addJoin, default, Option.getD_none]
  split
  · exact .refl
  · rename_i missing
    have absent : d.findJoin? target = none := by simpa [h.named] using missing
    split
    · rename_i e rest between
      have he : e ∈ w.graph.edgesBetween d.clauses.source.table target := by
        rw [between]
        exact List.mem_cons_self ..
      obtain ⟨edge, rfl⟩ := hop_of_mem_edgesBetween he
      refine .hop .refl h.base_mem edge ?_
      rw [inScope, List.mem_cons, not_or]
      exact ⟨loopless.target_ne edge, not_mem_of_findJoin?_eq_none absent⟩
    · split
      · rename_i p found
        exact led_joinPath rfl h.base_mem found
      · exact .refl

end Draft

end QueryWorkbench
