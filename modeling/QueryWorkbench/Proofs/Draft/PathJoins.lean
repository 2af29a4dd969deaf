/-
QueryWorkbench.Proofs.Draft.PathJoins — the joins that a selected column brings in.

Selecting a column of a table that is not in scope joins the best path from the base table to it.
`JoinedAlong` says which joins these are: one for each hop to a table that no join has brought in,
in the order of the path, each with the tables, the columns and the edge of its hop. It starts under
the alias that its source goes by there, and its own alias is new to the draft that it is added to
(`addColumn_of_bestPath`).

## How the proof goes

`joinedAlong_joinHops` is the induction on the hops, for any draft and any alias to start under. The
statement is about the final draft, in which the join of a source is looked up, while the hops are
joined one after the other. So it has to be shown that a join which is found at one moment is found
at the end (`findJoin?_of_joins_eq`), and that the hops behind the first one start where the
statement says (`JoinedAlong.behind`). Both use that the path is simple, which keeps a later hop
from being taken for the first one.

## The side conditions

* There is a base table, from which the path is searched.
* The table is not in scope, or nothing would be joined.
* The column is added, and the search finds a path. That it does where a walk is short enough is
  proved with the search (`JoinPath/Shortest.lean`).

The graph and the joins from before are arbitrary. An edge may lead from a table to itself, and a
path may pass through a table that is joined already, for which there is no second join.
-/
import Mathlib.Data.List.Forall2
import QueryWorkbench.Proofs.Draft.Retargeting
import QueryWorkbench.Proofs.Draft.Run
import QueryWorkbench.Proofs.JoinPath.Enumeration

namespace QueryWorkbench.Draft

variable {w : Workbench} {d final : Draft} {edges : List Edge}

/-! ## Joins along hops -/

/-- A join that goes along a hop: LEFT, between the tables and the columns of the hop, under its
edge, without a condition of its own and without a nested query. -/
structure GoesAlong (h : Hop) (j : Join Query) : Prop where
  kind : j.kind = .left
  sourceTable : j.sourceTable = h.source
  sourceColumn : j.sourceColumn = h.sourceColumn
  targetTable : j.targetTable = h.target
  targetColumn : j.targetColumn = h.targetColumn
  edge : j.edge = some h.edge
  condition : j.condition = none
  subquery : j.subquery = none
  subqueryAlias : j.subqueryAlias = none

/-- The alias that the join of a hop starts under: the given one if the hop is the first, and
otherwise that of the first join that brings in the table where the hop starts. -/
def StartsUnder (startAlias : String) (hops : List Hop) (final : Draft) (h : Hop) (j : Join Query) :
    Prop :=
  if hops.head? = some h then j.sourceAlias = startAlias
  else ∃ k, final.findJoin? h.source = some k ∧ j.sourceAlias = k.targetAlias

/-- The joins that hops add to a draft, the first hop starting under the given alias. -/
structure JoinedAlong (d final : Draft) (startAlias : String) (hops : List Hop)
    (made : List (Join Query)) : Prop where
  joins : final.clauses.joins = d.clauses.joins ++ made
  along : List.Forall₂ (fun h j => GoesAlong h j ∧ StartsUnder startAlias hops final h j)
    (hops.filter fun h => d.findJoin? h.target = none) made
  fresh : ∀ before j later, made = before ++ j :: later →
    j.targetAlias ∉
      ({ d.clauses with joins := d.clauses.joins ++ before } : Clauses Query).tableAliases.map (·.2)

theorem goesAlong_hopJoin (d : Draft) (h : Hop) (sourceAlias : String) :
    GoesAlong h (d.hopJoin h.source sourceAlias h) := ⟨rfl, rfl, rfl, rfl, rfl, rfl, rfl, rfl, rfl⟩

/-! ## Hops one after the other -/

theorem source_eq_of_linked {start : String} {h : Hop} {rest : List Hop}
    (linked : Linked edges start (h :: rest)) : h.source = start :=
  (mem_hopsFrom_iff_takes.mp linked.1).1

/-- Every hop starts at the start or where another one leads to. -/
theorem source_mem_of_linked {start : String} {hops : List Hop} (linked : Linked edges start hops) :
    ∀ h ∈ hops, h.source ∈ start :: hops.map (·.target) := by
  induction hops generalizing start with
  | nil => exact nofun
  | cons g rest ih =>
    intro h hh
    rcases List.mem_cons.mp hh with rfl | hh
    · rw [source_eq_of_linked linked]
      exact List.mem_cons_self ..
    · exact List.mem_cons_of_mem _ (ih linked.2 h hh)

/-- Where a join brings in a table first, it still does after more joins. -/
theorem findJoin?_of_joins_eq {more : List (Join Query)} {table : String} {k : Join Query}
    (joins : final.clauses.joins = d.clauses.joins ++ more) (found : d.findJoin? table = some k) :
    final.findJoin? table = some k := by
  rw [findJoin?] at found
  rw [findJoin?, joins, List.find?_append, found, Option.some_or]

theorem findJoin?_pushJoin_self {j : Join Query} (absent : d.findJoin? j.targetTable = none) :
    (d.pushJoin j).findJoin? j.targetTable = some j := by
  rw [findJoin?] at absent
  rw [findJoin?, pushJoin, List.find?_append, absent, Option.none_or]
  exact List.find?_cons_of_pos (beq_self_eq_true j.targetTable)

/-- A later hop starts at a table that a join has brought in, also when it comes right after the
first hop. -/
theorem StartsUnder.behind {start startAlias : String} {h g : Hop} {rest : List Hop}
    {j k : Join Query} (linked : Linked edges start (h :: rest))
    (simple : (start :: (h :: rest).map (·.target)).Nodup)
    (found : final.findJoin? h.target = some k) (hg : g ∈ rest)
    (under : StartsUnder k.targetAlias rest final g j) :
    StartsUnder startAlias (h :: rest) final g j := by
  have later : (h :: rest).head? ≠ some g := by
    rintro same
    obtain rfl : h = g := Option.some.inj same
    have back := source_mem_of_linked linked.2 h hg
    rw [source_eq_of_linked linked] at back
    exact (List.nodup_cons.mp simple).1 back
  rw [StartsUnder, if_neg later]
  rw [StartsUnder] at under
  split at under
  · rename_i next
    obtain ⟨more, rfl⟩ := List.head?_eq_some_iff.mp next
    exact ⟨k, by rwa [source_eq_of_linked linked.2], under⟩
  · exact under

/-- The joins of the later hops, seen from the first one. -/
theorem JoinedAlong.behind {start startAlias : String} {h : Hop} {rest : List Hop}
    {made : List (Join Query)} {k : Join Query} (linked : Linked edges start (h :: rest))
    (simple : (start :: (h :: rest).map (·.target)).Nodup)
    (found : final.findJoin? h.target = some k)
    (later : JoinedAlong d final k.targetAlias rest made) :
    List.Forall₂ (fun g j => GoesAlong g j ∧ StartsUnder startAlias (h :: rest) final g j)
      (rest.filter fun g => d.findJoin? g.target = none) made := by
  have there : ∀ g ∈ rest.filter fun g => d.findJoin? g.target = none, g ∈ rest :=
    fun g hg => (List.mem_filter.mp hg).1
  refine ((List.forall₂_and_left _ _).mpr ⟨there, later.along⟩).imp fun g j of => ?_
  exact ⟨of.2.1, of.2.2.behind linked simple found of.1⟩

/-- Joining hops that follow one another and pass no table twice. By induction on the hops; a hop
to a table that a join has brought in already adds nothing, and the next one starts from there. -/
theorem joinedAlong_joinHops {hops : List Hop} :
    ∀ {start : String} (startAlias : String) {d : Draft}, Linked edges start hops →
    (start :: hops.map (·.target)).Nodup →
    JoinedAlong d (joinHops start startAlias hops d).1 startAlias hops
      (joinHops start startAlias hops d).2 := by
  induction hops with
  | nil =>
    intro start startAlias d _ _
    exact ⟨(List.append_nil _).symm, .nil,
      fun before j later split => by cases before <;> cases split⟩
  | cons h rest ih =>
    intro start startAlias d linked simple
    have onward : (h.target :: rest.map (·.target)).Nodup := (List.nodup_cons.mp simple).2
    cases found : d.findJoin? h.target with
    | some k =>
      have step : joinHops start startAlias (h :: rest) d =
          joinHops h.target k.targetAlias rest d := by
        rw [joinHops, found, ← (mem_inScope_of_findJoin? found).1]
      rw [step]
      have later := ih k.targetAlias (d := d) linked.2 onward
      refine ⟨later.joins, ?_, later.fresh⟩
      rw [List.filter_cons_of_neg (by simp [found])]
      exact later.behind linked simple (findJoin?_of_joins_eq later.joins found)
    | none =>
      let j := d.hopJoin start startAlias h
      have step : joinHops start startAlias (h :: rest) d =
          ((joinHops h.target j.targetAlias rest (d.advance.pushJoin j)).1,
            j :: (joinHops h.target j.targetAlias rest (d.advance.pushJoin j)).2) := by
        rw [joinHops, found]
        rfl
      rw [step]
      have later := ih j.targetAlias (d := d.advance.pushJoin j) linked.2 onward
      have reached : (d.advance.pushJoin j).findJoin? h.target = some j :=
        findJoin?_pushJoin_self (d := d.advance) (j := j) found
      have others : (rest.filter fun g => d.findJoin? g.target = none) =
          rest.filter fun g => (d.advance.pushJoin j).findJoin? g.target = none := by
        refine List.filter_congr fun g hg => ?_
        have other : j.targetTable ≠ g.target := fun same =>
          (List.nodup_cons.mp onward).1 (List.mem_map.mpr ⟨g, hg, same.symm⟩)
        rw [findJoin?_pushJoin_of_ne other]
        rfl
      refine ⟨?_, ?_, ?_⟩
      · rw [later.joins]
        exact List.append_assoc _ [j] _
      · rw [List.filter_cons_of_pos (by simp [found]), others]
        refine .cons ⟨?_, ?_⟩
          (later.behind linked simple (findJoin?_of_joins_eq later.joins reached))
        · obtain rfl := source_eq_of_linked linked
          exact goesAlong_hopJoin d h startAlias
        · rw [StartsUnder, List.head?_cons, if_pos rfl]
          rfl
      · intro before i more made
        rcases List.cons_eq_append_iff.mp made with ⟨rfl, same⟩ | ⟨front, rfl, tail⟩
        · obtain ⟨rfl, -⟩ := List.cons.inj same
          rw [List.append_nil]
          exact freshAlias_not_mem_tableAliases d h.target
        · have new := later.fresh front i more tail
          rw [List.append_cons]
          exact new

/-- The new joins bring in the tables that the hops lead to and that were not brought in before. -/
theorem JoinedAlong.map_targetTable {startAlias : String} {hops : List Hop}
    {made : List (Join Query)} (along : JoinedAlong d final startAlias hops made) :
    (hops.filter fun h => d.findJoin? h.target = none).map (·.target) =
      made.map (·.targetTable) := by
  rw [← List.forall₂_eq_eq_eq, List.forall₂_map_left_iff, List.forall₂_map_right_iff]
  exact along.along.imp fun h j of => of.1.targetTable.symm

/-- So every table that a hop leads to is brought in. -/
theorem JoinedAlong.target_mem {startAlias : String} {hops : List Hop} {made : List (Join Query)}
    (along : JoinedAlong d final startAlias hops made) {h : Hop} (hh : h ∈ hops) :
    h.target ∈ final.clauses.joins.map (·.targetTable) := by
  rw [along.joins, List.map_append, List.mem_append]
  cases found : d.findJoin? h.target with
  | some k =>
    obtain ⟨same, -⟩ := mem_inScope_of_findJoin? found
    exact Or.inl (List.mem_map.mpr ⟨k, List.mem_of_find?_eq_some found, same⟩)
  | none =>
    rw [← along.map_targetTable]
    exact Or.inr (List.mem_map_of_mem (List.mem_filter.mpr ⟨hh, by simp [found]⟩))

/-! ## Selecting a column -/

/-- Joining the best path from the base table to another one. -/
theorem joinedAlong_joinPath {table : String} {p : JoinPath}
    (based : d.clauses.source.table ≠ "")
    (best : w.bestPath? d.clauses.source.table table = some p) :
    ∃ made,
      JoinedAlong d (d.joinPath d.clauses.source.table p).1
        (d.tableAlias d.clauses.source.table) p.hops made ∧
      (d.joinPath d.clauses.source.table p).1.clauses =
        { d.clauses with joins := d.clauses.joins ++ made } ∧
      table ∈ (d.joinPath d.clauses.source.table p).1.tables := by
  obtain ⟨other, n, -, sound⟩ := JoinPath.exists_trail_of_mem_search (List.mem_of_head? best)
  have along : JoinedAlong d (d.joinPath d.clauses.source.table p).1
      (d.tableAlias d.clauses.source.table) p.hops (d.joinPath d.clauses.source.table p).2 :=
    joinedAlong_joinHops _ sound.chain.linked sound.simple
  obtain ⟨more, clauses⟩ := (joined_joinPath (d := d) d.clauses.source.table p).clauses
  obtain rfl : more = (d.joinPath d.clauses.source.table p).2 := List.append_cancel_left
    ((congrArg Clauses.joins clauses).symm.trans along.joins)
  have based' : (d.joinPath d.clauses.source.table p).1.clauses.source.table ≠ "" := by
    rwa [clauses]
  refine ⟨_, along, clauses, (Clauses.mem_keys_tableAliases based').mpr ?_⟩
  rcases sound.chain.eq_or_mem with back | ⟨h, hh, same⟩
  · exact absurd back.symm other
  · obtain rfl : h.target = table := same
    exact List.mem_cons_of_mem _ (along.target_mem hh)

/-- A new column of a table that is not in scope comes with the joins of the best path from the base
table, and changes nothing else but the fields. -/
theorem addColumn_of_bestPath {table column : String} {x : Field Query} {p : JoinPath}
    (based : d.clauses.source.table ≠ "") (absent : table ∉ d.tables)
    (returned : (d.perform w (.addColumn table column)).outcome.result = .ok (.field (some x)))
    (best : w.bestPath? d.clauses.source.table table = some p) :
    ∃ made,
      JoinedAlong d (d.perform w (.addColumn table column)).draft
        (d.tableAlias d.clauses.source.table) p.hops made ∧
      (d.perform w (.addColumn table column)).draft.clauses =
        { d.clauses with joins := d.clauses.joins ++ made, fields := d.clauses.fields ++ [x] } ∧
      x.table = table ∧ x.column = column ∧
      table ∈ (d.perform w (.addColumn table column)).draft.tables := by
  have reached : d.reach w table = ((d.joinPath d.clauses.source.table p).1, []) := by
    simp [reach, based, absent, best]
  obtain ⟨made, along, clauses, there⟩ := joinedAlong_joinPath based best
  by_cases selected : (d.clauses.fields.any fun x => x.table == table && x.column == column) = true
  · simp only [perform, addColumn, if_pos selected] at returned
    cases returned
  · simp only [perform, addColumn, if_neg selected, reached] at returned ⊢
    cases returned
    refine ⟨made, ⟨along.joins, along.along, along.fresh⟩, ?_, rfl, rfl, there⟩
    simp only [withClauses, advance, clauses]
    rfl

/-- Orders belong to customers, and their items to products. -/
def warehouse : Workbench where
  graph :=
    { edges := [⟨"1", "orders", "customers", "customer_id", "id", none⟩,
        ⟨"2", "order_items", "orders", "order_id", "id", none⟩,
        ⟨"3", "order_items", "products", "product_id", "id", none⟩] }
  bestDepth := 4
  dialect := .mysql

/-- Customers with the orders that they paid, joined by hand. -/
def paidOrders : Draft :=
  run warehouse {} [.setBaseTable "customers",
    .addManualJoin "orders" "customers" [("id", "payer_id")] (.str "INNER") none (some "paid")]

/-- The path to the products goes on from the orders that are there, first against an edge. -/
theorem addColumn_of_bestPath_products :
    paidOrders.clauses.source.table ≠ "" ∧ "products" ∉ paidOrders.tables ∧
      ∃ p x made, warehouse.bestPath? paidOrders.clauses.source.table "products" = some p ∧
        (paidOrders.perform warehouse (.addColumn "products" "name")).outcome.result =
          .ok (.field (some x)) ∧
        JoinedAlong paidOrders (paidOrders.perform warehouse (.addColumn "products" "name")).draft
          (paidOrders.tableAlias paidOrders.clauses.source.table) p.hops made ∧
        p.hops.map (·.target) = ["orders", "order_items", "products"] ∧
        made.map (fun j => (j.sourceAlias, j.sourceColumn, j.targetTable, j.targetColumn)) =
          [("paid", "id", "order_items", "order_id"), ("ord", "product_id", "products", "id")] := by
  have based : paidOrders.clauses.source.table ≠ "" := by decide
  have absent : "products" ∉ paidOrders.tables := by decide
  obtain ⟨p, best⟩ : ∃ p, warehouse.bestPath? paidOrders.clauses.source.table "products" = some p :=
    ⟨_, rfl⟩
  obtain ⟨x, returned⟩ : ∃ x,
      (paidOrders.perform warehouse (.addColumn "products" "name")).outcome.result =
        .ok (.field (some x)) := ⟨_, rfl⟩
  obtain ⟨made, along, -⟩ := addColumn_of_bestPath based absent returned best
  refine ⟨based, absent, p, x, made, best, returned, along, ?_, ?_⟩
  · have hops : (warehouse.bestPath? paidOrders.clauses.source.table "products").map
        (fun p => p.hops.map (·.target)) = some ["orders", "order_items", "products"] := by
      decide +kernel
    rw [best] at hops
    exact Option.some.inj hops
  · have joins : ((paidOrders.perform warehouse
        (.addColumn "products" "name")).draft.clauses.joins.drop 1).map
          (fun j => (j.sourceAlias, j.sourceColumn, j.targetTable, j.targetColumn)) =
        [("paid", "id", "order_items", "order_id"), ("ord", "product_id", "products", "id")] := by
      decide +kernel
    rw [along.joins] at joins
    exact joins

end QueryWorkbench.Draft
