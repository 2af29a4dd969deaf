/-
QueryWorkbench.Proofs.JoinPath.Frontier — the tables suggested next to those already included.

A suggestion is an edge with one end included and the other outside and a node.
`SchemaGraph.suggestion?` says of each edge alone what it suggests. The finder goes table by table
and gathers what it meets by the table outside; gathered are the suggestions of all edges, each
once, and no table that is included (`relatedTables_frontier`).

## How the proof goes

The finder goes over the included tables and then over the edges, and the statement over the edges
alone, so the two loops are exchanged first (`flatMap_flatMap_perm`). An edge with one end included
is met at this table and at no other (`flatMap_knownOffer`), for which the included tables have to
be listed once each; the finder drops repeats before it starts. Gathering by tables puts every entry
into the list of its table and only changes the order (`ungathered_gather`, by induction on the
entries), and the tables are the keys of a map (`nodup_tables_gather`).

The statement is about permutations and not about lists, because the order of the suggestions
depends on the order in which the tables are included. No condition is put on the graph: edges may
repeat, lead from a table to itself, or have an end that is no node.
-/
import Mathlib.Data.List.Induction
import Mathlib.Data.List.Perm.Basic
import QueryWorkbench.JoinPath.Finder
import QueryWorkbench.Proofs.Query.TableAlias

namespace QueryWorkbench

/-! ## Lists -/

section Lists

variable {α β γ : Type}

/-- Two loops may change places, up to the order of what they give. -/
theorem flatMap_flatMap_perm (l : List α) (m : List β) (F : α → β → List γ) :
    (l.flatMap fun a => m.flatMap fun b => F a b).Perm
      (m.flatMap fun b => l.flatMap fun a => F a b) := by
  induction m with
  | nil => simp
  | cons b rest ih =>
    simp only [List.flatMap_cons]
    exact (List.flatMap_append_perm l _ _).symm.trans (ih.append_left _)

/-- A loop over different elements of which one gives something. -/
theorem flatMap_eq_of_nodup {l : List α} {F : α → List β} (nodup : l.Nodup) {a : α} (ha : a ∈ l)
    (others : ∀ x ∈ l, x ≠ a → F x = []) : l.flatMap F = F a := by
  induction l with
  | nil => cases ha
  | cons b rest ih =>
    obtain ⟨new, nodup⟩ := List.nodup_cons.mp nodup
    have later : ∀ x ∈ rest, x ≠ a → F x = [] := fun x hx => others x (List.mem_cons_of_mem _ hx)
    rw [List.flatMap_cons]
    rcases List.mem_cons.mp ha with rfl | ha
    · have none : ∀ x ∈ rest, F x = [] := fun x hx => later x hx fun same => new (same ▸ hx)
      rw [List.flatMap_eq_nil_iff.mpr none, List.append_nil]
    · have other : b ≠ a := fun same => new (same ▸ ha)
      rw [others b (List.mem_cons_self ..) other, List.nil_append, ih nodup ha later]

theorem nodup_eraseDups [DecidableEq α] : ∀ l : List α, l.eraseDups.Nodup
  | [] => List.nodup_nil
  | a :: rest => by
    rw [List.eraseDups_cons, List.nodup_cons, List.mem_eraseDups]
    exact ⟨by simp, nodup_eraseDups _⟩
termination_by l => l.length
decreasing_by exact Nat.lt_succ_of_le (List.length_filter_le ..)

end Lists

/-- A write keeps the keys different. -/
theorem Assoc.nodup_keys_put {κ α : Type} [DecidableEq κ] {key : κ} {value : α}
    {entries : List (κ × α)} (nodup : (entries.map (·.1)).Nodup) :
    ((put key value entries).map (·.1)).Nodup := by
  induction entries with
  | nil => exact List.nodup_singleton _
  | cons e rest ih =>
    obtain ⟨new, nodup⟩ := List.nodup_cons.mp nodup
    rw [put]
    split
    · rename_i same
      exact List.nodup_cons.mpr ⟨same ▸ new, nodup⟩
    · rename_i other
      refine List.nodup_cons.mpr ⟨fun again => ?_, ih nodup⟩
      exact (mem_keys_put.mp again).elim other new

/-! ## What edges suggest -/

/-- A suggestion as it is shown: a table outside, an edge that joins it to an included table, which
of the edge's ends it is, and the included table. -/
structure Suggestion where
  table : String
  edge : Edge
  direction : String
  included : String
deriving DecidableEq

/-- What an edge suggests: its outside end, if the other one is included and this one is a node. -/
def SchemaGraph.suggestion? (g : SchemaGraph) (included : List String) (e : Edge) :
    Option Suggestion :=
  if e.source ∈ included ∧ e.target ∉ included ∧ e.target ∈ g.nodeIds then
    some ⟨e.target, e, "to", e.source⟩
  else if e.target ∈ included ∧ e.source ∉ included ∧ e.source ∈ g.nodeIds then
    some ⟨e.source, e, "from", e.target⟩
  else none

theorem SchemaGraph.table_not_mem_of_suggestion? {g : SchemaGraph} {included : List String}
    {e : Edge} {s : Suggestion} (suggested : g.suggestion? included e = some s) :
    s.table ∉ included := by
  rw [suggestion?] at suggested
  split at suggested
  · rename_i leaves
    obtain rfl := Option.some.inj suggested
    exact leaves.2.1
  · split at suggested
    · rename_i enters
      obtain rfl := Option.some.inj suggested
      exact enters.2.1
    · cases suggested

/-- A relationship as it is shown under its table. -/
def Relationship.suggesting (table : String) (r : Relationship) : Suggestion :=
  ⟨table, r.edge, r.outside.name, r.included⟩

/-- What is shown of a related table. -/
def RelatedTable.suggestions (t : RelatedTable) : List Suggestion :=
  t.relationships.map (·.suggesting t.table)

namespace PathFinder

/-! ## Gathering -/

/-- Every relationship of some groups, with the table of its group. -/
def ungathered (groups : List (String × List Relationship)) : List (String × Relationship) :=
  groups.flatMap fun g => g.2.map fun r => (g.1, r)

theorem gather_concat (found : List (String × Relationship)) (entry : String × Relationship) :
    gather (found ++ [entry]) =
      Assoc.put entry.1 ((Assoc.get? entry.1 (gather found)).getD [] ++ [entry.2])
        (gather found) := by
  rw [gather, List.foldl_append]
  rfl

/-- What is filed under a table comes in addition to what is there. -/
theorem ungathered_put (table : String) (r : Relationship)
    (groups : List (String × List Relationship)) :
    (ungathered (Assoc.put table ((Assoc.get? table groups).getD [] ++ [r]) groups)).Perm
      ((table, r) :: ungathered groups) := by
  induction groups with
  | nil => exact List.Perm.refl _
  | cons g rest ih =>
    by_cases same : g.1 = table
    · subst same
      rw [Assoc.get?, if_pos rfl, Assoc.put, if_pos rfl]
      simp only [ungathered, List.flatMap_cons, Option.getD_some, List.map_append, List.map_cons,
        List.map_nil, List.append_assoc, List.singleton_append]
      exact List.perm_middle
    · rw [Assoc.get?, if_neg same, Assoc.put, if_neg same]
      simp only [ungathered, List.flatMap_cons] at ih ⊢
      exact (ih.append_left _).trans List.perm_middle

/-- Gathering loses nothing and adds nothing. -/
theorem ungathered_gather (found : List (String × Relationship)) :
    (ungathered (gather found)).Perm found := by
  induction found using List.reverseRecOn with
  | nil => exact List.Perm.refl _
  | append_singleton found entry ih =>
    rw [gather_concat]
    exact ((ungathered_put _ _ _).trans (ih.cons _)).trans (List.perm_append_singleton _ _).symm

theorem nodup_tables_gather (found : List (String × Relationship)) :
    ((gather found).map (·.1)).Nodup := by
  induction found using List.reverseRecOn with
  | nil => exact List.nodup_nil
  | append_singleton found entry ih =>
    rw [gather_concat]
    exact Assoc.nodup_keys_put ih

theorem ne_nil_of_mem_gather {found : List (String × Relationship)} {relationships}
    (hr : relationships ∈ (gather found).map (·.2)) : relationships ≠ [] := by
  induction found using List.reverseRecOn with
  | nil => cases hr
  | append_singleton found entry ih =>
    rw [gather_concat] at hr
    rcases Assoc.mem_values_put hr with rfl | hr
    · exact List.append_ne_nil_of_right_ne_nil _ (List.cons_ne_nil _ _)
    · exact ih hr

/-! ## The finder's offers -/

/-- What an edge offers beyond an included table, if it is a node. -/
def knownOffer (f : PathFinder) (included : List String) (table : String) (e : Edge) :
    Option (String × Relationship) :=
  (offer included table e).bind fun o =>
    if o.1 ∈ f.graph.nodeIds then some (o.1, ⟨e, o.2, table⟩) else none

theorem offers_eq (f : PathFinder) (included : List String) :
    f.offers included =
      included.flatMap fun table => f.graph.edges.filterMap (f.knownOffer included table) := by
  rw [offers]
  congr 1
  funext table
  congr 1
  funext e
  rw [knownOffer]
  cases offer included table e <;> rfl

/-- An edge is offered at one of the included tables if it suggests something, and else at none. -/
theorem flatMap_knownOffer (f : PathFinder) {included : List String} (nodup : included.Nodup)
    (e : Edge) :
    included.flatMap (fun table =>
        ((f.knownOffer included table e).map fun o => o.2.suggesting o.1).toList) =
      (f.graph.suggestion? included e).toList := by
  by_cases hs : e.source ∈ included <;> by_cases ht : e.target ∈ included
  · rw [List.flatMap_eq_nil_iff.mpr]
    · simp [SchemaGraph.suggestion?, hs, ht]
    · intro table _
      simp [knownOffer, offer, hs, ht]
  · rw [flatMap_eq_of_nodup nodup hs]
    · by_cases known : e.target ∈ f.graph.nodeIds <;>
        simp [knownOffer, offer, SchemaGraph.suggestion?, Relationship.suggesting, EdgeEnd.name,
          hs, ht, known]
    · intro table there other
      have not_target : e.target ≠ table := fun same => ht (same ▸ there)
      simp [knownOffer, offer, other.symm, not_target]
  · rw [flatMap_eq_of_nodup nodup ht]
    · have other : e.source ≠ e.target := fun same => hs (same ▸ ht)
      by_cases known : e.source ∈ f.graph.nodeIds <;>
        simp [knownOffer, offer, SchemaGraph.suggestion?, Relationship.suggesting, EdgeEnd.name,
          hs, ht, known, other]
    · intro table there other
      have not_source : e.source ≠ table := fun same => hs (same ▸ there)
      simp [knownOffer, offer, other.symm, not_source]
  · rw [List.flatMap_eq_nil_iff.mpr]
    · simp [SchemaGraph.suggestion?, hs, ht]
    · intro table there
      have not_source : e.source ≠ table := fun same => hs (same ▸ there)
      have not_target : e.target ≠ table := fun same => ht (same ▸ there)
      simp [knownOffer, offer, not_source, not_target]

/-- The offers at different included tables are the suggestions of all edges. -/
theorem map_offers_perm (f : PathFinder) {included : List String} (nodup : included.Nodup) :
    ((f.offers included).map fun o => o.2.suggesting o.1).Perm
      (f.graph.edges.filterMap (f.graph.suggestion? included)) := by
  rw [offers_eq, List.map_flatMap]
  simp only [List.map_filterMap]
  simp only [List.filterMap_eq_flatMap_toList]
  refine (flatMap_flatMap_perm _ _ _).trans (List.Perm.of_eq ?_)
  exact congrArg (List.flatMap · _) (funext fun e => flatMap_knownOffer f nodup e)

/-! ## Related tables -/

theorem flatMap_suggestions (groups : List (String × List Relationship)) :
    (groups.map fun g => (⟨g.1, g.2⟩ : RelatedTable)).flatMap (·.suggestions) =
      (ungathered groups).map fun o => o.2.suggesting o.1 := by
  simp only [ungathered, RelatedTable.suggestions, List.flatMap_map, List.map_flatMap, List.map_map]
  rfl

/-- The related tables are different and not included, each has a relationship, and together they
show what the edges suggest, edge by edge: the node outside with the edge, the end that it is and
the included table. -/
theorem relatedTables_frontier (f : PathFinder) (included : List String) :
    ((f.relatedTables included).map (·.table)).Nodup ∧
      (∀ t ∈ f.relatedTables included, t.table ∉ included ∧ t.relationships ≠ []) ∧
      ((f.relatedTables included).flatMap (·.suggestions)).Perm
        (f.graph.edges.filterMap (f.graph.suggestion? included)) := by
  have shown : ((f.relatedTables included).flatMap (·.suggestions)).Perm
      (f.graph.edges.filterMap (f.graph.suggestion? included)) := by
    have same : f.graph.suggestion? included.eraseDups = f.graph.suggestion? included := by
      funext e
      simp only [SchemaGraph.suggestion?, List.mem_eraseDups]
    rw [← same, relatedTables, flatMap_suggestions]
    exact ((ungathered_gather _).map _).trans (map_offers_perm f (nodup_eraseDups included))
  refine ⟨?_, fun t ht => ?_, shown⟩
  · rw [relatedTables, List.map_map]
    exact nodup_tables_gather _
  · have some_relationship : t.relationships ≠ [] := by
      obtain ⟨g, hg, rfl⟩ := List.mem_map.mp ht
      exact ne_nil_of_mem_gather (List.mem_map_of_mem hg)
    refine ⟨?_, some_relationship⟩
    obtain ⟨r, hr⟩ := List.exists_mem_of_ne_nil _ some_relationship
    have suggested := shown.subset (List.mem_flatMap.mpr ⟨t, ht, List.mem_map_of_mem hr⟩)
    obtain ⟨e, -, he⟩ := List.mem_filterMap.mp suggested
    exact SchemaGraph.table_not_mem_of_suggestion? he

end PathFinder

end QueryWorkbench
