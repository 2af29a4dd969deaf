/-
QueryWorkbench.Proofs.Draft.AliasReuse — when two tables of a draft get the same alias.

A new alias differs from those that the tables in scope go by, and a table that is brought in again
goes by its last alias only. So an alias can be given a second time, but only after the table that
had it has been brought in again (`brought_after_run`), which a run over a table that refers to
itself shows (`not_nodup_aliases_orders`).

## How the proof goes

`brought` lists the tables with their aliases in the order in which they came, and what the tables
go by now is this list written into a map entry by entry (`tableAliases_eq_putAll_brought`). The
invariant is `FreshlyAliased`: every entry has an alias that was not in the map when it came. Each
action extends the list by such entries (`NewlyAliased.joined`, by induction on the joins that it
adds), so the invariant holds after every run. What it comes to is a matter of the list alone: a map
that an alias is not in has lost the entry that had it, so the table of that entry was written again
in between (`FreshlyAliased.brought_again`).

## The side conditions

* The run starts with a base table, because what a draft was built from before may have any aliases.
* An alias that is given for a nested query is taken as it is, so `BringsTables` leaves such joins
  out. The aliases that the draft chooses itself are new in any case.
-/
import QueryWorkbench.Proofs.Draft.Joined
import QueryWorkbench.Proofs.Draft.Run

namespace QueryWorkbench

/-! ## Writes of new values -/

namespace Assoc

variable {κ α : Type} [DecidableEq κ]

theorem putAll_concat (entries more : List (κ × α)) (e : κ × α) :
    putAll entries (more ++ [e]) = put e.1 e.2 (putAll entries more) := by
  rw [putAll, List.foldl_append]
  rfl

/-- A write of a value that no key has keeps the values different. -/
theorem nodup_values_put {key : κ} {value : α} {entries : List (κ × α)}
    (nodup : (entries.map (·.2)).Nodup) (new : value ∉ entries.map (·.2)) :
    ((put key value entries).map (·.2)).Nodup := by
  induction entries with
  | nil => exact List.nodup_singleton _
  | cons e rest ih =>
    rw [List.map_cons, List.mem_cons, not_or] at new
    rw [List.map_cons, List.nodup_cons] at nodup
    rw [put]
    split
    · exact List.nodup_cons.mpr ⟨new.2, nodup.2⟩
    · refine List.nodup_cons.mpr ⟨fun h => ?_, ih nodup.2 new.2⟩
      rcases mem_values_put h with same | h
      · exact new.1 same.symm
      · exact nodup.1 h

/-- A key that is not written again keeps its value. -/
theorem get?_putAll_of_not_mem {key : κ} {entries more : List (κ × α)}
    (other : key ∉ more.map (·.1)) : get? key (putAll entries more) = get? key entries := by
  induction more generalizing entries with
  | nil => rfl
  | cons e rest ih =>
    rw [List.map_cons, List.mem_cons, not_or] at other
    have step : putAll entries (e :: rest) = putAll (put e.1 e.2 entries) rest := rfl
    rw [step, ih other.2, get?_put, if_neg fun h => other.1 h.symm]

end Assoc

/-! ## Tables under new aliases -/

/-- Tables with their aliases, each alias new when it was given: no table went by it then. -/
inductive FreshlyAliased : List (String × String) → Prop
  | nil : FreshlyAliased []
  | snoc {entries : List (String × String)} {e : String × String} : FreshlyAliased entries →
      e.2 ∉ (Assoc.putAll [] entries).map (·.2) → FreshlyAliased (entries ++ [e])

namespace FreshlyAliased

variable {entries : List (String × String)}

/-- The aliases that tables go by are different. -/
theorem nodup_current (h : FreshlyAliased entries) :
    ((Assoc.putAll [] entries).map (·.2)).Nodup := by
  induction h with
  | nil => exact List.nodup_nil
  | snoc _ new ih =>
    rw [Assoc.putAll_concat]
    exact Assoc.nodup_values_put ih new

/-- Between two tables with one alias the first of them is brought in again. -/
theorem brought_again (h : FreshlyAliased entries) :
    ∀ {before between after : List (String × String)} {x y : String × String},
    entries = before ++ x :: (between ++ y :: after) → x.2 = y.2 → x.1 ∈ between.map (·.1) := by
  induction h with
  | nil => simp
  | @snoc entries e _ new ih =>
    intro before between after x y split same
    rcases List.eq_nil_or_concat' after with rfl | ⟨after, last, rfl⟩
    · have split : entries ++ [e] = (before ++ x :: between) ++ [y] := by simpa using split
      obtain ⟨rfl, last⟩ := List.append_inj' split rfl
      obtain rfl : e = y := by simpa using last
      by_contra once
      have step : Assoc.putAll [] (before ++ x :: between) =
          Assoc.putAll (Assoc.put x.1 x.2 (Assoc.putAll [] before)) between := by
        rw [Assoc.putAll, List.foldl_append]
        rfl
      have current : Assoc.get? x.1 (Assoc.putAll [] (before ++ x :: between)) = some x.2 := by
        rw [step, Assoc.get?_putAll_of_not_mem once, Assoc.get?_put, if_pos rfl]
      exact new (same ▸ Assoc.mem_values_of_get? current)
    · have split : entries ++ [e] = (before ++ x :: (between ++ y :: after)) ++ [last] := by
        simpa using split
      exact ih (List.append_inj' split rfl).1 same

/-- Where no table is brought in twice all aliases are different. -/
theorem nodup_aliases (h : FreshlyAliased entries) (tables : (entries.map (·.1)).Nodup) :
    (entries.map (·.2)).Nodup := by
  have current := h.nodup_current
  rwa [Assoc.putAll_of_nodup (by simpa using tables), List.nil_append] at current

end FreshlyAliased

/-! ## Runs -/

/-- The actions that choose a base table or bring in tables under aliases of their own choice. -/
def Action.BringsTables : Action → Prop
  | .setBaseTable table => table ≠ ""
  | .addColumn _ _ => True
  | .addJoin _ _ => True
  | .addManualJoin _ _ _ _ _ subqueryAlias => Sql.given subqueryAlias = none
  | _ => False

namespace Draft

variable {w : Workbench} {d final : Draft}

/-- The tables of a draft with their aliases, in the order in which they were brought in. -/
def brought (d : Draft) : List (String × String) :=
  (d.clauses.source.table, d.clauses.source.aliasName) ::
    d.clauses.joins.map fun j => (j.targetTable, j.targetAlias)

theorem brought_pushJoin (d : Draft) (j : Join Query) :
    (d.pushJoin j).brought = d.brought ++ [(j.targetTable, j.targetAlias)] := by
  simp [brought, pushJoin]

/-- A draft with a base table whose tables all got new aliases. -/
structure NewlyAliased (d : Draft) : Prop where
  named : d.clauses.source.table ≠ ""
  fresh : FreshlyAliased d.brought

theorem tableAliases_eq_putAll_brought (named : d.clauses.source.table ≠ "") :
    d.tableAliases = Assoc.putAll [] d.brought :=
  Clauses.tableAliases_eq_putAll named

theorem NewlyAliased.joined (h : NewlyAliased d) (j : Joined d final) : NewlyAliased final := by
  induction j with
  | refl => exact h
  | advance _ ih => exact ⟨ih.named, ih.fresh⟩
  | @push mid j _ new ih =>
    refine ⟨ih.named, ?_⟩
    rw [tableAliases_eq_putAll_brought ih.named] at new
    rw [brought_pushJoin]
    exact ih.fresh.snoc new

theorem newlyAliased_setBaseTable {table : String} (ht : table ≠ "") :
    NewlyAliased (d.perform w (.setBaseTable table)).draft :=
  ⟨ht, .snoc .nil List.not_mem_nil⟩

/-- Each of the actions gives new aliases only. -/
theorem NewlyAliased.perform (h : NewlyAliased d) {a : Action} (ha : a.BringsTables) :
    NewlyAliased (d.perform w a).draft := by
  cases a with
  | setBaseTable table => exact newlyAliased_setBaseTable ha
  | addColumn table column =>
    rw [Draft.perform, addColumn]
    split
    · exact h
    · have reached := h.joined (joined_reach (w := w) table)
      exact ⟨reached.named, reached.fresh⟩
  | addJoin target source => exact h.joined (joined_addJoin target source)
  | addManualJoin target source columns kind subquery subqueryAlias =>
    exact h.joined (joined_addManualJoin target source columns kind subquery ha)
  | _ => exact absurd ha id

/-- After any run that starts with a base table, two tables have the same alias only if the first
of them was brought in again before the second. So no two do when no table was brought in twice,
and never do two of those aliases that tables go by now. -/
theorem brought_after_run {base : String} (hb : base ≠ "") {actions : List Action}
    (ha : ∀ a ∈ actions, a.BringsTables) (d : Draft) :
    (∀ before x between y after,
      (d.run w (.setBaseTable base :: actions)).brought =
        before ++ x :: (between ++ y :: after) →
      x.2 = y.2 → x.1 ∈ between.map (·.1)) ∧
    (((d.run w (.setBaseTable base :: actions)).brought.map (·.1)).Nodup →
      ((d.run w (.setBaseTable base :: actions)).brought.map (·.2)).Nodup) ∧
    ((d.run w (.setBaseTable base :: actions)).tableAliases.map (·.2)).Nodup := by
  have aliased : NewlyAliased (d.run w (.setBaseTable base :: actions)) :=
    run_keeps (d := (d.perform w (.setBaseTable base)).draft)
      (fun allowed kept => kept.perform allowed) (newlyAliased_setBaseTable hb) ha
  refine ⟨fun _ _ _ _ _ split same => aliased.fresh.brought_again split same,
    aliased.fresh.nodup_aliases, ?_⟩
  rw [tableAliases_eq_putAll_brought aliased.named]
  exact aliased.fresh.nodup_current

/-- Orders have a parent order, and items belong to orders. -/
def orders : Workbench where
  graph :=
    { edges := [⟨"1", "orders", "orders", "parent", "id", none⟩,
        ⟨"2", "order_items", "orders", "order_id", "id", none⟩] }
  bestDepth := 3
  dialect := .mysql

/-- The parents of orders, and the items of these. -/
def itemsOfParents : List Action := [.addJoin "orders" none, .addColumn "order_items" "id"]

theorem bringsTables_itemsOfParents : ∀ a ∈ itemsOfParents, a.BringsTables := by
  simp [itemsOfParents, Action.BringsTables]

theorem brought_after_run_orders :
    "orders" ≠ "" ∧ (∀ a ∈ itemsOfParents, a.BringsTables) ∧
      (∀ before x between y after,
        (run orders {} (.setBaseTable "orders" :: itemsOfParents)).brought =
          before ++ x :: (between ++ y :: after) →
        x.2 = y.2 → x.1 ∈ between.map (·.1)) ∧
      ((run orders {} (.setBaseTable "orders" :: itemsOfParents)).tableAliases.map (·.2)).Nodup ∧
      ((run orders {}
        (.setBaseTable "orders" :: itemsOfParents.tail)).brought.map (·.1)).Nodup ∧
      ((run orders {}
        (.setBaseTable "orders" :: itemsOfParents.tail)).brought.map (·.2)).Nodup := by
  have named : "orders" ≠ "" := by decide
  obtain ⟨again, _, current⟩ := brought_after_run (w := orders) named bringsTables_itemsOfParents {}
  have once : ((run orders {}
      (.setBaseTable "orders" :: itemsOfParents.tail)).brought.map (·.1)).Nodup := by decide
  have allowed : ∀ a ∈ itemsOfParents.tail, a.BringsTables := fun a ha =>
    bringsTables_itemsOfParents a (List.mem_of_mem_tail ha)
  exact ⟨named, bringsTables_itemsOfParents, again, current, once,
    (brought_after_run named allowed {}).2.1 once⟩

/-- The parents are orders too and take a new alias, and the items then get that of the orders. -/
theorem not_nodup_aliases_orders :
    "orders" ≠ "" ∧ (∀ a ∈ itemsOfParents, a.BringsTables) ∧
      (run orders {} (.setBaseTable "orders" :: itemsOfParents)).brought =
        [("orders", "ord"), ("orders", "ord1"), ("order_items", "ord")] ∧
      ¬ ((run orders {} (.setBaseTable "orders" :: itemsOfParents)).brought.map (·.2)).Nodup :=
  ⟨by decide, bringsTables_itemsOfParents, by decide, by decide⟩

end Draft

end QueryWorkbench
