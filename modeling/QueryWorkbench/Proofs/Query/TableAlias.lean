/-
QueryWorkbench.Proofs.Query.TableAlias — the aliases of a level, by table.

The tables that have an alias are the first table and the targets of the joins
(`mem_keys_tableAliases`). As long as no table is brought in twice, the aliases of a level are those
of its source and of its joins, one after the other (`tableAliases_eq`).
-/
import Mathlib.Data.List.Nodup
import QueryWorkbench.Query.TableAlias

namespace QueryWorkbench

/-! ## Tables with their values -/

namespace Assoc

variable {κ α : Type} [DecidableEq κ]

/-- A key that is not there yet comes last. -/
theorem put_of_not_mem {key : κ} {value : α} {entries : List (κ × α)}
    (new : key ∉ entries.map (·.1)) : put key value entries = entries ++ [(key, value)] := by
  induction entries with
  | nil => rfl
  | cons e rest ih =>
    rw [List.map_cons, List.mem_cons, not_or] at new
    rw [put, if_neg fun h => new.1 h.symm, ih new.2, List.cons_append]

/-- A write adds its key and keeps the others. -/
theorem mem_keys_put {key other : κ} {value : α} {entries : List (κ × α)} :
    other ∈ (put key value entries).map (·.1) ↔ other = key ∨ other ∈ entries.map (·.1) := by
  induction entries with
  | nil => simp [put]
  | cons e rest ih =>
    by_cases same : e.1 = key
    · simp [put, same]
    · simp only [put, if_neg same, List.map_cons, List.mem_cons, ih]
      exact or_left_comm

theorem mem_keys_putAll {key : κ} {entries more : List (κ × α)} :
    key ∈ (putAll entries more).map (·.1) ↔ key ∈ entries.map (·.1) ∨ key ∈ more.map (·.1) := by
  induction more generalizing entries with
  | nil => simp [putAll]
  | cons e rest ih =>
    have step : putAll entries (e :: rest) = putAll (put e.1 e.2 entries) rest := rfl
    rw [step, ih, mem_keys_put, List.map_cons, List.mem_cons]
    exact or_assoc.trans or_left_comm

/-- Writes to different new keys add up. -/
theorem putAll_of_nodup {entries more : List (κ × α)}
    (nodup : (entries.map (·.1) ++ more.map (·.1)).Nodup) :
    putAll entries more = entries ++ more := by
  induction more generalizing entries with
  | nil => simp [putAll]
  | cons e rest ih =>
    have new : e.1 ∉ entries.map (·.1) := fun old =>
      (List.nodup_append.mp nodup).2.2 _ old _ (List.mem_cons_self ..) rfl
    have step : putAll entries (e :: rest) = putAll (put e.1 e.2 entries) rest := rfl
    rw [step, put_of_not_mem new, ih (by simpa using nodup), List.append_assoc, List.singleton_append]

end Assoc

/-! ## The tables of a level -/

namespace Clauses

variable {Q : Type}

theorem tableAliases_eq_putAll {c : Clauses Q} (named : c.source.table ≠ "") :
    c.tableAliases = Assoc.putAll [(c.source.table, c.source.aliasName)]
      (c.joins.map fun j => (j.targetTable, j.targetAlias)) := by
  simp [tableAliases, Assoc.putAll, named, List.foldl_map]

/-- The tables that have an alias are the first table and the targets of the joins. -/
theorem mem_keys_tableAliases {c : Clauses Q} (named : c.source.table ≠ "") {table : String} :
    table ∈ c.tableAliases.map (·.1) ↔ table ∈ c.source.table :: c.joins.map (·.targetTable) := by
  rw [tableAliases_eq_putAll named, Assoc.mem_keys_putAll, List.map_map, List.map_singleton,
    List.mem_singleton, List.mem_cons]
  rfl

/-- The alias of a table came with the first table or with a join. -/
theorem eq_of_get?_tableAliases {c : Clauses Q} {table a : String}
    (found : Assoc.get? table c.tableAliases = some a) :
    a = c.source.aliasName ∨ ∃ j ∈ c.joins, a = j.targetAlias := by
  have walk : ∀ (joins : List (Join Q)) (entries : List (String × String)),
      Assoc.get? table
        (joins.foldl (fun acc j => Assoc.put j.targetTable j.targetAlias acc) entries) = some a →
      Assoc.get? table entries = some a ∨ ∃ j ∈ joins, a = j.targetAlias := by
    intro joins
    induction joins with
    | nil => exact fun _ h => Or.inl h
    | cons j rest ih =>
      intro entries h
      rcases ih _ h with h | ⟨k, hk, rfl⟩
      · rw [Assoc.get?_put] at h
        split at h
        · exact Or.inr ⟨j, List.mem_cons_self .., (Option.some.inj h).symm⟩
        · exact Or.inl h
      · exact Or.inr ⟨k, List.mem_cons_of_mem _ hk, rfl⟩
  rcases walk _ _ found with first | joined
  · refine Or.inl ?_
    split at first
    · cases first
    · rw [Assoc.get?] at first
      split at first
      · exact (Option.some.inj first).symm
      · cases first
  · exact Or.inr joined

/-- A table stands under its own name, under the alias of the first table or under that of a join. -/
theorem aliasOr_tableAliases (c : Clauses Q) (table : String) :
    aliasOr c.tableAliases table = table ∨ aliasOr c.tableAliases table = c.source.aliasName ∨
      ∃ j ∈ c.joins, aliasOr c.tableAliases table = j.targetAlias := by
  rw [aliasOr]
  cases found : (Assoc.get? table c.tableAliases).filter (· ≠ "") with
  | none => exact Or.inl rfl
  | some a => exact Or.inr (eq_of_get?_tableAliases (Option.eq_some_of_filter_eq_some found))

/-- Only the first table and the targets of the joins have an alias. -/
theorem get?_tableAliases_eq_none_iff {c : Clauses Q} {table : String} (table_ne : table ≠ "") :
    Assoc.get? table c.tableAliases = none ↔
      table ∉ c.source.table :: c.joins.map (·.targetTable) := by
  have putAll : c.tableAliases = Assoc.putAll
      (if c.source.table = "" then [] else [(c.source.table, c.source.aliasName)])
      (c.joins.map fun j => (j.targetTable, j.targetAlias)) := by
    rw [Assoc.putAll, List.foldl_map]
    rfl
  have first : table ∈ (if c.source.table = "" then []
      else [(c.source.table, c.source.aliasName)]).map Prod.fst ↔ table = c.source.table := by
    split
    · rename_i unnamed
      simp [unnamed, table_ne]
    · simp
  rw [Assoc.get?_eq_none_iff, putAll, Assoc.mem_keys_putAll, first, List.map_map, List.mem_cons]
  rfl

/-- As long as no table is brought in twice, every table keeps the alias it came with. -/
theorem tableAliases_eq {c : Clauses Q} (named : c.source.table ≠ "")
    (distinct : (c.source.table :: c.joins.map (·.targetTable)).Nodup) :
    c.tableAliases = (c.source.table, c.source.aliasName) ::
      c.joins.map fun j => (j.targetTable, j.targetAlias) := by
  rw [tableAliases_eq_putAll named, Assoc.putAll_of_nodup, List.singleton_append]
  simpa [Function.comp_def] using distinct

end Clauses

theorem aliasOr_of_get? {aliases : List (String × String)} {table a : String}
    (found : Assoc.get? table aliases = some a) (named : a ≠ "") : aliasOr aliases table = a := by
  simp [aliasOr, found, Option.filter, named]

end QueryWorkbench
