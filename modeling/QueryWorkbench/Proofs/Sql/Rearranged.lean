/-
QueryWorkbench.Proofs.Sql.Rearranged — the list order of numbered items does not count.

The items of five clauses carry a number. `Rearranged` takes the items of such a clause in another
list order, the numbers telling them apart, and `Query.Rearranged` does so at every depth of a
query: the queries nested in it may be rearranged themselves, and all else is the same. Two such
queries are the same text, in both dialects and layouts (`generate_eq_of_rearranged`).

## How the proof goes

Sorting by different numbers has one result, whatever the order before (`Rearranged.sortedBy_eq`),
so a level generates the same fragments (`Clauses.Rearranged.fragments_eq`). For the nested queries
`Query.Rearranged` carries the two queries as pairs in one level (`both`): a level is rearranged and
its nested queries are replaced at the same time, and the induction on the rearrangement says of
each pair that its two queries are the same text (`compactText_eq_of_rearranged`). Mapping both
sides of the pairs to this text leaves the two levels of one text each that the first part is about
(`fragments_map_eq`).

## The side condition

The numbers of a clause are different, and this is part of `Rearranged`. Sorting is stable, so items
with one number come in the order of the list. A clause that is there without items stays there,
which is why the clauses that may be missing are compared by `Option.Rel`.
-/
import Mathlib.Data.List.Nodup
import QueryWorkbench.Proofs.Query.Levels
import QueryWorkbench.Sql.Generate

namespace QueryWorkbench

variable {α β P Q : Type}

/-! ## Rearranged clauses -/

/-- Items in another list order, no two of them with the same number. -/
structure Rearranged (order : α → Int) (items others : List α) : Prop where
  perm : items.Perm others
  distinct : (items.map order).Nodup

namespace Rearranged

variable {order : α → Int} {items others : List α}

/-- Numbers that tell items apart leave one way to sort them. -/
theorem sortedBy_eq (h : Rearranged order items others) :
    Sql.sortedBy order items = Sql.sortedBy order others := by
  refine List.Perm.eq_of_pairwise (fun a b ha hb below above => ?_)
    (Sql.pairwise_sortedBy order items) (Sql.pairwise_sortedBy order others) ?_
  · refine List.inj_on_of_nodup_map h.distinct ?_ ?_ (Int.le_antisymm below above)
    · exact (List.mergeSort_perm _ _).mem_iff.mp ha
    · exact h.perm.mem_iff.mpr ((List.mergeSort_perm _ _).mem_iff.mp hb)
  · exact (List.mergeSort_perm _ _).trans (h.perm.trans (List.mergeSort_perm _ _).symm)

theorem isEmpty_eq (h : Rearranged order items others) : items.isEmpty = others.isEmpty := by
  rw [Bool.eq_iff_iff, List.isEmpty_iff, List.isEmpty_iff, ← List.length_eq_zero_iff,
    ← List.length_eq_zero_iff, h.perm.length_eq]

theorem map {order' : β → Int} {m : α → β} (same : ∀ a, order' (m a) = order a)
    (h : Rearranged order items others) :
    Rearranged order' (items.map m) (others.map m) := by
  refine ⟨h.perm.map m, ?_⟩
  have numbers : order' ∘ m = order := funext same
  rw [List.map_map, numbers]
  exact h.distinct

/-- A clause that may be absent has no items then. -/
theorem getD {items? others? : Option (List α)}
    (h : Option.Rel (Rearranged order) items? others?) :
    Rearranged order (items?.getD []) (others?.getD []) := by
  cases h with
  | some h => exact h
  | none => exact ⟨.nil, List.nodup_nil⟩

theorem optionMap {order' : β → Int} {m : α → β} (same : ∀ a, order' (m a) = order a)
    {items? others? : Option (List α)} (h : Option.Rel (Rearranged order) items? others?) :
    Option.Rel (Rearranged order') (items?.map (List.map m)) (others?.map (List.map m)) := by
  cases h with
  | some h => exact .some (h.map same)
  | none => exact .none

end Rearranged

/-! ## Rearranged levels and queries -/

/-- The same level but for the list order of the items that carry numbers. -/
structure Clauses.Rearranged (c c' : Clauses Q) : Prop where
  source : c.source = c'.source
  fields : QueryWorkbench.Rearranged (·.order) c.fields c'.fields
  joins : c.joins = c'.joins
  conditions : Option.Rel (QueryWorkbench.Rearranged (·.order)) c.conditions c'.conditions
  groupings : Option.Rel (QueryWorkbench.Rearranged (·.order)) c.groupings c'.groupings
  sortings : Option.Rel (QueryWorkbench.Rearranged (·.order)) c.sortings c'.sortings
  limit : c.limit = c'.limit
  ctes : c.ctes = c'.ctes
  unions : QueryWorkbench.Rearranged (·.order) c.unions c'.unions

/-- Two queries that differ, at any depth, in the list order of numbered items only: with the pairs
`both` of queries in the places of nested queries, the one query has the first of each pair there
and the other one the second, and the clauses of the other one may stand in another order. -/
inductive Query.Rearranged : Query → Query → Prop
  | mk {both : Clauses (Query × Query)} {c : Clauses Query} :
      (∀ pair ∈ both.nested, Query.Rearranged pair.1 pair.2) →
      (both.map Prod.snd).Rearranged c →
      Query.Rearranged (.mk (both.map Prod.fst)) (.mk c)

namespace Clauses

/-- Changes that agree on the nested queries are the same change. -/
theorem map_congr_nested {f g : P → Q} {c : Clauses P} (same : ∀ q ∈ c.nested, f q = g q) :
    c.map f = c.map g := by
  obtain ⟨source, fields, joins, conditions, ctes, unions⟩ := forall_nested_iff.mp same
  have sources : c.source.map f = c.source.map g := by
    rw [Source.map, Source.map, Option.map_congr source]
  have fields' : c.fields.map (Field.map f) = c.fields.map (Field.map g) :=
    List.map_congr_left fun x hx => by rw [Field.map, Field.map, Option.map_congr (fields x hx)]
  have joins' : c.joins.map (Join.map f) = c.joins.map (Join.map g) :=
    List.map_congr_left fun j hj => by rw [Join.map, Join.map, Option.map_congr (joins j hj)]
  have conditions' : c.conditions.map (List.map (Condition.map f)) =
      c.conditions.map (List.map (Condition.map g)) :=
    Option.map_congr fun items written => List.map_congr_left fun x hx => by
      have there : x ∈ c.conditions.getD [] := by rwa [Option.mem_def.mp written]
      rw [Condition.map, Condition.map, Option.map_congr (conditions x there)]
  have ctes' : c.ctes.map (Cte.map f) = c.ctes.map (Cte.map g) :=
    List.map_congr_left fun x hx => by rw [Cte.map, Cte.map, ctes x hx]
  have unions' : c.unions.map (Union.map f) = c.unions.map (Union.map g) :=
    List.map_congr_left fun u hu => by rw [Union.map, Union.map, unions u hu]
  rw [map, map, sources, fields', joins', conditions', ctes', unions']

namespace Rearranged

theorem map (f : P → Q) {c c' : Clauses P} (h : c.Rearranged c') :
    (c.map f).Rearranged (c'.map f) where
  source := congrArg (Source.map f) h.source
  fields := h.fields.map fun _ => rfl
  joins := congrArg (List.map (Join.map f)) h.joins
  conditions := QueryWorkbench.Rearranged.optionMap (fun _ => rfl) h.conditions
  groupings := h.groupings
  sortings := h.sortings
  limit := h.limit
  ctes := congrArg (List.map (Cte.map f)) h.ctes
  unions := h.unions.map fun _ => rfl

theorem tableAliases_eq {c c' : Clauses Q} (h : c.Rearranged c') :
    c.tableAliases = c'.tableAliases := by
  rw [tableAliases, tableAliases, h.source, h.joins]

/-- A rearranged level generates the same fragments: every numbered clause is sorted first, and
whether there are numbered items is not a matter of their order. -/
theorem fragments_eq (d : Dialect) {c c' : Clauses String} (h : c.Rearranged c') :
    Sql.fragments d c = Sql.fragments d c' := by
  have conditions := QueryWorkbench.Rearranged.getD h.conditions
  have groupings := QueryWorkbench.Rearranged.getD h.groupings
  have sortings := QueryWorkbench.Rearranged.getD h.sortings
  have selected (aliases top) : Sql.selectFragments aliases c.fields top =
      Sql.selectFragments aliases c'.fields top := by
    rw [Sql.selectFragments, Sql.selectFragments, Sql.selectItems, Sql.selectItems,
      h.fields.sortedBy_eq]
  have filtered (aliases) : Sql.conditionFragments aliases (c.conditions.getD []) =
      Sql.conditionFragments aliases (c'.conditions.getD []) := by
    rw [Sql.conditionFragments, Sql.conditionFragments, conditions.sortedBy_eq]
  have grouped (aliases) : Sql.groupingFragments aliases (c.groupings.getD []) =
      Sql.groupingFragments aliases (c'.groupings.getD []) := by
    rw [Sql.groupingFragments, Sql.groupingFragments, groupings.sortedBy_eq]
  have sorted (aliases) : Sql.sortingFragments aliases (c.sortings.getD []) =
      Sql.sortingFragments aliases (c'.sortings.getD []) := by
    rw [Sql.sortingFragments, Sql.sortingFragments, sortings.sortedBy_eq]
  have united : Sql.unionFragments c.unions = Sql.unionFragments c'.unions := by
    rw [Sql.unionFragments, Sql.unionFragments, h.unions.sortedBy_eq]
  rw [Sql.fragments, Sql.fragments, h.tableAliases_eq, selected, filtered, grouped, sorted, united,
    sortings.isEmpty_eq, h.source, h.joins, h.limit, h.ctes]

end Rearranged

end Clauses

namespace Sql

/-! ## The same text -/

/-- What a level generates from texts of nested queries that are the same in both. -/
theorem fragments_map_eq (d : Dialect) {text : Query → String} {both : Clauses (Query × Query)}
    {c : Clauses Query} (same : ∀ pair ∈ both.nested, text pair.1 = text pair.2)
    (h : (both.map Prod.snd).Rearranged c) :
    fragments d ((both.map Prod.fst).map text) = fragments d (c.map text) := by
  have nested : both.map (text ∘ Prod.fst) = both.map (text ∘ Prod.snd) :=
    Clauses.map_congr_nested same
  rw [← (h.map text).fragments_eq d, Clauses.map_map, Clauses.map_map, nested]

/-- Nested queries are written on one line, by induction from the inside out. -/
theorem compactText_eq_of_rearranged (d : Dialect) {q q' : Query} (h : q.Rearranged q') :
    compactText d q = compactText d q' := by
  induction h with
  | mk _ level ih =>
    rw [compactText, Query.fold_mk, compactText, Query.fold_mk]
    exact congrArg (render d .compact) (fragments_map_eq d ih level)

/-- Queries that differ in the list order of numbered items only are the same SQL text. -/
theorem generate_eq_of_rearranged {q q' : Query} (h : q.Rearranged q') (d : Dialect)
    (layout : Layout) : generate d layout q = generate d layout q' := by
  cases h with
  | mk nested level =>
    have same := fragments_map_eq d (fun pair hp => compactText_eq_of_rearranged d (nested pair hp))
      level
    exact congrArg (render d layout) same

/-- Orders of the customers that some conditions hold of. -/
def ordersWhere (fields : List (Field Query)) (conditions : List (Condition Query)) : Query :=
  let customers : Query :=
    .mk { source := { table := "customers", aliasName := "c" }, conditions := some conditions }
  .mk { source := { table := "orders", aliasName := "o" }, fields := fields,
        conditions := some [
          { table := "orders", column := "customer", operator := .isIn,
            subquery := some customers }] }

/-- Two conditions on customers; the connective of the one that comes first is not written. -/
def isMarked {Q : Type} : Condition Q :=
  { table := "customers", column := "mark", value := .bool true, connective := some .or,
    order := 2 }

def isInParis {Q : Type} : Condition Q :=
  { table := "customers", column := "city", value := .str "Paris", connective := some .and,
    order := 1 }

/-- Two columns of orders. -/
def orderTotal {Q : Type} : Field Q := { table := "orders", column := "total", order := 1 }

def orderId {Q : Type} : Field Q := { table := "orders", column := "id" }

/-- The nested query with its conditions as they are listed, and with the other one first. -/
def customersBothWays : Query × Query :=
  (.mk { source := { table := "customers", aliasName := "c" },
         conditions := some [isMarked, isInParis] },
   .mk { source := { table := "customers", aliasName := "c" },
         conditions := some [isInParis, isMarked] })

theorem rearranged_customersBothWays :
    customersBothWays.1.Rearranged customersBothWays.2 := by
  refine @Query.Rearranged.mk
    { source := { table := "customers", aliasName := "c" },
      conditions := some [isMarked, isInParis] } _ ?_ ?_
  · simp [Clauses.nested, isMarked, isInParis]
  · exact ⟨rfl, ⟨.nil, .nil⟩, rfl, .some ⟨.swap _ _ _, by decide⟩, .none, .none, rfl, rfl,
      ⟨.nil, .nil⟩⟩

theorem rearranged_ordersWhere :
    (ordersWhere [orderTotal, orderId] [isMarked, isInParis]).Rearranged
      (ordersWhere [orderId, orderTotal] [isInParis, isMarked]) := by
  refine @Query.Rearranged.mk
    { source := { table := "orders", aliasName := "o" },
      fields := [orderTotal, orderId],
      conditions := some [
        { table := "orders", column := "customer", operator := .isIn,
          subquery := some customersBothWays }] } _ ?_ ?_
  · intro pair hp
    obtain rfl : pair = customersBothWays := by
      simpa [Clauses.nested, orderTotal, orderId] using hp
    exact rearranged_customersBothWays
  · exact ⟨rfl, ⟨.swap _ _ _, by decide⟩, rfl, .some ⟨.refl _, by decide⟩, .none, .none, rfl, rfl,
      ⟨.nil, .nil⟩⟩

/-- The fields of the outer level and the conditions of the nested one change places. -/
theorem generate_eq_of_rearranged_ordersWhere :
    (ordersWhere [orderTotal, orderId] [isMarked, isInParis]).Rearranged
        (ordersWhere [orderId, orderTotal] [isInParis, isMarked]) ∧
      generate .sqlServer .pretty (ordersWhere [orderTotal, orderId] [isMarked, isInParis]) =
        generate .sqlServer .pretty (ordersWhere [orderId, orderTotal] [isInParis, isMarked]) :=
  ⟨rearranged_ordersWhere, generate_eq_of_rearranged rearranged_ordersWhere .sqlServer .pretty⟩

end Sql

end QueryWorkbench
