/-
QueryWorkbench.Proofs.Draft.Retargeting — when the alias of a table that is in scope changes.

The items of a query name their tables, and SQL text has in place of a table the alias that it goes
by when the text is written. A table that is brought in again goes by its new alias from then on,
and with it all items that named it before. `tableAlias_after_run` says which actions do that:
selecting a column never does, a join does it to the base table alone, and a join by given columns
to its target. `not_kept_backToOrders` shows one.

## How the proof goes

One more join gives its target a new alias and leaves all others alone (`tableAlias_pushJoin`,
`tableAlias_pushJoin_of_ne`). A path is joined hop by hop, passing over the tables that a join has
brought in. So a table keeps its alias exactly if a join has brought it in or no hop leads to it
(`tableAlias_joinHops_iff`, by induction on the hops): the only table in scope without a join is the
base table. Of each action it is then known exactly when it changes the alias (`Action.Rebrings`,
`tableAlias_perform_iff`), and the text of a column changes just when the alias does
(`text_columnRef_eq_iff`).

## The side conditions

* The run starts with a base table and then adds columns and joins (`Extends`), which leaves no
  alias empty (`AllAliased`). A table with an empty alias goes by its name.
* The table is in scope. One that is not gets an alias when it is brought in.
-/
import QueryWorkbench.Proofs.Draft.AliasReuse
import QueryWorkbench.Proofs.Draft.Growth

namespace QueryWorkbench

theorem getD_given_ne_empty (s : Option String) {other : String} (named : other ≠ "") :
    (Sql.given s).getD other ≠ "" := by
  cases given : Sql.given s with
  | none => exact named
  | some a => simpa using (Option.filter_eq_some_iff.mp given).2

/-- The tables that joining two tables leads through and to: the second one if an edge relates the
two, and else those of the best path. -/
def Workbench.wayTo (w : Workbench) (source target : String) : List String :=
  match w.graph.edgesBetween source target with
  | _ :: _ => [target]
  | [] => ((w.bestPath? source target).map fun p => p.hops.map (·.target)).getD []

/-- The actions that select a column or join a table. -/
def Action.Extends : Action → Prop
  | .addColumn _ _ | .addJoin _ _ | .addManualJoin _ _ _ _ _ _ => True
  | _ => False

/-- When an action brings in a table in scope under another alias. A join does so with the base
table, if no join has brought it in before, and if it is the target or on the way there. A join by
given columns does so with its target, unless the alias it is told is the one that the target has. -/
def Action.Rebrings (w : Workbench) (d : Draft) (table : String) : Action → Prop
  | .addJoin target source =>
    table = d.clauses.source.table ∧ d.findJoin? table = none ∧ d.findJoin? target = none ∧
      table ∈ w.wayTo ((Sql.given source).getD d.clauses.source.table) target
  | .addManualJoin target _ columns kind _ subqueryAlias =>
    table = target ∧ columns ≠ [] ∧ (∃ k : JoinKind, kind = .str k.name) ∧
      Sql.given subqueryAlias ≠ some (d.tableAlias table)
  | _ => False

namespace Draft

variable {w : Workbench} {d : Draft} {table : String}

/-! ## One more join -/

theorem tableAliases_pushJoin (d : Draft) (j : Join Query) :
    (d.pushJoin j).tableAliases = Assoc.put j.targetTable j.targetAlias d.tableAliases := by
  simp only [tableAliases, Clauses.tableAliases, pushJoin, List.foldl_append]
  rfl

theorem tableAlias_pushJoin_of_ne {j : Join Query} (other : j.targetTable ≠ table) :
    (d.pushJoin j).tableAlias table = d.tableAlias table := by
  rw [tableAlias, tableAliases_pushJoin, aliasOr, Assoc.get?_put, if_neg other]
  rfl

/-- The target of the last join goes by the alias of that join. -/
theorem tableAlias_pushJoin {j : Join Query} (named : j.targetAlias ≠ "") :
    (d.pushJoin j).tableAlias j.targetTable = j.targetAlias := by
  rw [tableAlias, tableAliases_pushJoin]
  exact aliasOr_of_get? (by rw [Assoc.get?_put, if_pos rfl]) named

theorem mem_tables_pushJoin {j : Join Query} (there : table ∈ d.tables) :
    table ∈ (d.pushJoin j).tables := by
  rw [tables, tableAliases_pushJoin]
  exact Assoc.mem_keys_put.mpr (Or.inr there)

theorem findJoin?_pushJoin_of_ne {j : Join Query} (other : j.targetTable ≠ table) :
    (d.pushJoin j).findJoin? table = d.findJoin? table := by
  simp [findJoin?, pushJoin, other]

theorem findJoin?_pushJoin_ne_none (d : Draft) (j : Join Query) :
    (d.pushJoin j).findJoin? j.targetTable ≠ none := by
  simp [findJoin?, pushJoin]

/-- A table in scope that no join has brought in is the base table. -/
theorem eq_base_of_findJoin?_eq_none (there : table ∈ d.tables) (missing : d.findJoin? table = none) :
    d.clauses.source.table ≠ "" ∧ table = d.clauses.source.table := by
  have absent := not_mem_of_findJoin?_eq_none missing
  by_cases unnamed : d.clauses.source.table = ""
  · have keys : d.tableAliases = Assoc.putAll []
        (d.clauses.joins.map fun j => (j.targetTable, j.targetAlias)) := by
      simp [tableAliases, Clauses.tableAliases, unnamed, Assoc.putAll, List.foldl_map]
    rw [tables, keys, Assoc.mem_keys_putAll, List.map_map] at there
    exact absurd (there.resolve_left List.not_mem_nil) absent
  · have known := (Clauses.mem_keys_tableAliases unnamed).mp there
    exact ⟨unnamed, (List.mem_cons.mp known).resolve_right absent⟩

/-! ## Drafts with aliases -/

/-- Every table in scope has an alias. -/
def AllAliased (d : Draft) : Prop := ∀ a ∈ d.tableAliases.map (·.2), a ≠ ""

/-- The alias of a table in scope is one of those that are taken. -/
theorem AllAliased.tableAlias_mem (h : AllAliased d) (there : table ∈ d.tables) :
    d.tableAlias table ∈ d.tableAliases.map (·.2) := by
  cases found : Assoc.get? table d.tableAliases with
  | none => exact absurd there (Assoc.get?_eq_none_iff.mp found)
  | some a =>
    have taken := Assoc.mem_values_of_get? found
    have own : d.tableAlias table = a := aliasOr_of_get? found (h a taken)
    rwa [own]

/-- So a new alias is another one. -/
theorem AllAliased.freshAlias_ne (h : AllAliased d) (there : table ∈ d.tables) (target : String) :
    d.freshAlias target ≠ d.tableAlias table := by
  intro same
  exact freshAlias_not_mem_tableAliases d target (same ▸ h.tableAlias_mem there)

theorem AllAliased.pushJoin (h : AllAliased d) {j : Join Query} (named : j.targetAlias ≠ "") :
    AllAliased (d.pushJoin j) := by
  intro a ha
  rw [tableAliases_pushJoin] at ha
  rcases Assoc.mem_values_put ha with rfl | ha
  · exact named
  · exact h a ha

/-- A join of a hop. -/
theorem AllAliased.hop (h : AllAliased d) (source sourceAlias : String) (hop : Hop) :
    AllAliased (d.advance.pushJoin (d.hopJoin source sourceAlias hop)) :=
  AllAliased.pushJoin (d := d.advance) h (freshAlias_ne_empty _ _)

/-- The join of a hop changes the alias of the table that the hop leads to. -/
theorem AllAliased.tableAlias_hop_iff (h : AllAliased d) (there : table ∈ d.tables)
    (source sourceAlias : String) (hop : Hop) :
    (d.advance.pushJoin (d.hopJoin source sourceAlias hop)).tableAlias table = d.tableAlias table ↔
      hop.target ≠ table := by
  refine ⟨fun same here => ?_, fun other => tableAlias_pushJoin_of_ne other⟩
  subst here
  have changed : (d.advance.pushJoin (d.hopJoin source sourceAlias hop)).tableAlias hop.target =
      d.freshAlias hop.target := tableAlias_pushJoin (freshAlias_ne_empty _ _)
  exact h.freshAlias_ne there hop.target (changed.symm.trans same)

/-! ## Joins of hops -/

/-- Hops change the alias of a table exactly if they lead to it and no join has brought it in. -/
theorem tableAlias_joinHops_iff {hops : List Hop} :
    ∀ {source sourceAlias : String} {d : Draft}, AllAliased d → table ∈ d.tables →
      ((joinHops source sourceAlias hops d).1.tableAlias table = d.tableAlias table ↔
        ¬ (d.findJoin? table = none ∧ table ∈ hops.map (·.target))) := by
  induction hops with
  | nil => simp [joinHops]
  | cons hop rest ih =>
    intro source sourceAlias d h there
    rw [joinHops]
    cases found : d.findJoin? hop.target with
    | some j =>
      rw [ih h there, List.map_cons, List.mem_cons]
      by_cases here : table = hop.target
      · simp [here, found]
      · simp [here]
    | none =>
      have more := h.hop source sourceAlias hop
      have step := h.tableAlias_hop_iff there source sourceAlias hop
      have still : table ∈ (d.advance.pushJoin (d.hopJoin source sourceAlias hop)).tables :=
        mem_tables_pushJoin there
      have later := @ih hop.target (d.freshAlias hop.target) _ more still
      by_cases here : hop.target = table
      · -- The join of this hop brings the table in, and no later one does so again.
        subst here
        have joined : (d.advance.pushJoin (d.hopJoin source sourceAlias hop)).findJoin? hop.target ≠
            none := findJoin?_pushJoin_ne_none _ _
        have final := later.mpr fun both => joined both.1
        refine iff_of_false (fun same => step.mp (final.symm.trans same) rfl) fun kept => kept ?_
        exact ⟨found, List.mem_map_of_mem (List.mem_cons_self ..)⟩
      · have missing : (d.advance.pushJoin (d.hopJoin source sourceAlias hop)).findJoin? table =
            d.findJoin? table := findJoin?_pushJoin_of_ne here
        have elsewhere : ¬ table = hop.target := fun same => here same.symm
        rw [step.mpr here, missing] at later
        rw [List.map_cons, List.mem_cons, or_iff_right elsewhere]
        exact later

/-! ## One action -/

/-- A kind of joins is given by its name. -/
theorem named_joinKind_eq_ok_iff {kind : Json} {k : JoinKind} :
    named JoinKind.name JoinKind.all .joinKind kind = .ok k ↔ kind = .str k.name := by
  constructor
  · intro known
    cases kind with
    | str s =>
      rw [named, Document.readChoice] at known
      cases found : JoinKind.all.find? fun a => a.name == s with
      | none =>
        rw [found] at known
        cases known
      | some a =>
        rw [found] at known
        obtain rfl : a = k := by simpa using known
        have same : a.name = s := by simpa using List.find?_some found
        rw [same]
    | _ => cases known
  · rintro rfl
    cases k <;> rfl

theorem tableAlias_addColumn (h : AllAliased d) (there : table ∈ d.tables) (target column : String) :
    (d.addColumn w target column).draft.tableAlias table = d.tableAlias table := by
  rw [addColumn]
  split
  · rfl
  · show (d.reach w target).1.tableAlias table = d.tableAlias table
    rw [reach]
    split
    · rfl
    · split
      · rename_i p found
        refine (tableAlias_joinHops_iff h there).mpr ?_
        rintro ⟨missing, passed⟩
        -- A best path from the base table does not come back to it.
        obtain ⟨-, n, -, sound⟩ := JoinPath.exists_trail_of_mem_search (List.mem_of_head? found)
        have simple := (List.nodup_cons.mp sound.simple).1
        exact simple ((eq_base_of_findJoin?_eq_none there missing).2 ▸ passed)
      · rfl

theorem tableAlias_addJoin_iff (h : AllAliased d) (there : table ∈ d.tables) (target : String)
    (source : Option String) :
    (d.addJoin w target source).1.tableAlias table = d.tableAlias table ↔
      ¬ (Action.addJoin target source).Rebrings w d table := by
  have named (missing : d.findJoin? table = none) :
      (Sql.given source).getD d.clauses.source.table ≠ "" :=
    getD_given_ne_empty source (eq_base_of_findJoin?_eq_none there missing).1
  simp only [addJoin, Action.Rebrings]
  generalize (Sql.given source).getD d.clauses.source.table = start at named
  split
  · rename_i idle
    refine iff_of_true rfl ?_
    rintro ⟨-, missing, absent, -⟩
    simp [named missing, absent] at idle
  · rename_i active
    have absent : d.findJoin? target = none := by
      simp only [Bool.or_eq_true, decide_eq_true_eq, not_or] at active
      simpa using active.2
    split
    · rename_i e rest between
      have way : w.wayTo start target = [target] := by simp only [Workbench.wayTo, between]
      have he : e ∈ w.graph.edgesBetween start target := between ▸ List.mem_cons_self ..
      have leads := (hop_of_mem_edgesBetween he).2
      rw [way, List.mem_singleton]
      refine (h.tableAlias_hop_iff there _ _ _).trans (not_congr ?_)
      rw [leads]
      constructor
      · rintro rfl
        exact ⟨(eq_base_of_findJoin?_eq_none there absent).2, absent, absent, rfl⟩
      · rintro ⟨-, -, -, here⟩
        exact here.symm
    · rename_i unrelated
      split
      · rename_i p found
        have way : w.wayTo start target = p.hops.map (·.target) := by
          simp only [Workbench.wayTo, unrelated, found, Option.map_some, Option.getD_some]
        rw [joinPath, tableAlias_joinHops_iff h there, way]
        refine not_congr ⟨?_, ?_⟩
        · rintro ⟨missing, passed⟩
          exact ⟨(eq_base_of_findJoin?_eq_none there missing).2, missing, absent, passed⟩
        · rintro ⟨-, missing, -, passed⟩
          exact ⟨missing, passed⟩
      · rename_i unreached
        have way : w.wayTo start target = [] := by
          simp only [Workbench.wayTo, unrelated, unreached, Option.map_none, Option.getD_none]
        rw [way]
        refine iff_of_true rfl ?_
        rintro ⟨-, -, -, passed⟩
        exact List.not_mem_nil passed

theorem tableAlias_addManualJoin_iff (h : AllAliased d) (there : table ∈ d.tables)
    (target source : String) (columns : List (String × String)) (kind : Json)
    (subquery : Option Query) (subqueryAlias : Option String) :
    (d.addManualJoin w target source columns kind subquery subqueryAlias).draft.tableAlias table =
        d.tableAlias table ↔
      ¬ (Action.addManualJoin target source columns kind subquery subqueryAlias).Rebrings w d
        table := by
  simp only [Action.Rebrings]
  rcases addManualJoin_cases w d target source columns kind subquery subqueryAlias with
    ⟨empty, same⟩ | ⟨f, unknown, same⟩ | ⟨k, j, some, known, joined, aliasName, same⟩ <;> rw [same]
  · refine iff_of_true rfl ?_
    rintro ⟨-, some, -⟩
    exact some empty
  · refine iff_of_true rfl ?_
    rintro ⟨-, -, ⟨k, hk⟩, -⟩
    rw [named_joinKind_eq_ok_iff.mpr hk] at unknown
    cases unknown
  · have valid : ∃ k : JoinKind, kind = .str k.name := ⟨k, named_joinKind_eq_ok_iff.mp known⟩
    by_cases here : target = table
    · subst here
      have fresh := h.freshAlias_ne there target
      have named : j.targetAlias ≠ "" :=
        aliasName ▸ getD_given_ne_empty subqueryAlias (freshAlias_ne_empty _ _)
      have now : (d.advance.pushJoin j).tableAlias target = j.targetAlias := by
        rw [← joined]
        exact tableAlias_pushJoin named
      show (d.advance.pushJoin j).tableAlias target = _ ↔ _
      rw [now, aliasName]
      simp only [some, ne_eq, not_false_eq_true, valid, true_and, not_not]
      cases Sql.given subqueryAlias with
      | none => simpa using fresh
      | some a => simp
    · refine iff_of_true (tableAlias_pushJoin_of_ne (d := d.advance) (joined ▸ here)) ?_
      rintro ⟨again, -⟩
      exact here again.symm

/-! ## Runs -/

theorem allAliased_setBaseTable (d : Draft) (base : String) :
    AllAliased (d.perform w (.setBaseTable base)).draft := by
  intro a ha
  have only : (d.perform w (.setBaseTable base)).draft.tableAliases =
      if base = "" then [] else [(base, QueryWorkbench.freshAlias base [])] := rfl
  rw [only] at ha
  by_cases unnamed : base = ""
  · simp [unnamed] at ha
  · rw [if_neg unnamed] at ha
    obtain rfl := List.mem_singleton.mp ha
    exact freshAlias_ne_empty base []

section

variable (Kept : List (String × String) → Prop)
variable (step : ∀ {aliases} table {a}, a ≠ "" → Kept aliases → Kept (Assoc.put table a aliases))
include step

theorem pushJoin_keeps {j : Join Query} (named : j.targetAlias ≠ "") (kept : Kept d.tableAliases) :
    Kept (d.pushJoin j).tableAliases := by
  rw [tableAliases_pushJoin]
  exact step j.targetTable named kept

/-- What one more alias keeps, the joins of hops keep. -/
theorem joinHops_keeps {hops : List Hop} : ∀ {source sourceAlias : String} {d : Draft},
    Kept d.tableAliases → Kept (joinHops source sourceAlias hops d).1.tableAliases := by
  induction hops with
  | nil => exact id
  | cons hop rest ih =>
    intro source sourceAlias d kept
    rw [joinHops]
    split
    · exact ih kept
    · exact ih (pushJoin_keeps (d := d.advance) Kept step (freshAlias_ne_empty _ _) kept)

/-- What one more alias keeps, selecting a column and joining a table keep. -/
theorem perform_keeps {a : Action} (ha : a.Extends) (kept : Kept d.tableAliases) :
    Kept (d.perform w a).draft.tableAliases := by
  have push {j : Join Query} (named : j.targetAlias ≠ "") :
      Kept (d.advance.pushJoin j).tableAliases := pushJoin_keeps (d := d.advance) Kept step named kept
  cases a with
  | addColumn table column =>
    rw [perform, addColumn]
    split
    · exact kept
    · show Kept (d.reach w table).1.tableAliases
      rw [reach]
      split
      · exact kept
      · split
        · exact joinHops_keeps Kept step kept
        · exact kept
  | addJoin target source =>
    show Kept (d.addJoin w target source).1.tableAliases
    rw [addJoin]
    split
    · exact kept
    · split
      · exact push (freshAlias_ne_empty _ _)
      · split
        · exact joinHops_keeps Kept step kept
        · exact kept
  | addManualJoin target source columns kind subquery subqueryAlias =>
    rw [perform]
    rcases addManualJoin_cases w d target source columns kind subquery subqueryAlias with
      ⟨-, same⟩ | ⟨f, -, same⟩ | ⟨k, j, -, -, -, aliasName, same⟩ <;> rw [same]
    · exact kept
    · exact kept
    · exact push (aliasName ▸ getD_given_ne_empty subqueryAlias (freshAlias_ne_empty _ _))
  | _ => exact ha.elim

end

/-- Selecting a column and joining a table leave every table with an alias. -/
theorem AllAliased.perform (h : AllAliased d) {a : Action} (ha : a.Extends) :
    AllAliased (d.perform w a).draft := by
  refine perform_keeps (d := d) (fun aliases => ∀ a ∈ aliases.map Prod.snd, a ≠ "")
    (fun table _ named kept b hb => ?_) ha h
  rcases Assoc.mem_values_put hb with rfl | hb
  · exact named
  · exact kept b hb

/-- What is in scope stays in scope. -/
theorem mem_tables_perform {a : Action} (ha : a.Extends) (there : table ∈ d.tables) :
    table ∈ (d.perform w a).draft.tables :=
  perform_keeps (d := d) (fun aliases => table ∈ aliases.map Prod.fst)
    (fun _ _ _ kept => Assoc.mem_keys_put.mpr (Or.inr kept)) ha there

theorem tableAlias_perform_iff (h : AllAliased d) (there : table ∈ d.tables) {a : Action}
    (ha : a.Extends) :
    (d.perform w a).draft.tableAlias table = d.tableAlias table ↔ ¬ a.Rebrings w d table := by
  cases a with
  | addColumn target column => exact iff_of_true (tableAlias_addColumn h there target column) id
  | addJoin target source => exact tableAlias_addJoin_iff h there target source
  | addManualJoin target source columns kind subquery subqueryAlias =>
    exact tableAlias_addManualJoin_iff h there target source columns kind subquery subqueryAlias
  | _ => exact ha.elim

/-- What is written for a column tells the alias of its table. -/
theorem text_columnRef_eq_iff {before after : List (String × String)} {dialect : Dialect}
    {column : String} (named : aliasOr before table ≠ "") (named' : aliasOr after table ≠ "") :
    (Sql.columnRef after table column).text dialect =
        (Sql.columnRef before table column).text dialect ↔
      aliasOr after table = aliasOr before table := by
  rw [Sql.columnRef, Sql.columnRef, if_neg named, if_neg named']
  refine ⟨fun same => ?_, fun same => by rw [same]⟩
  simp only [Sql.Phrase.text, List.map_cons, String.join_cons, Sql.Token.text] at same
  exact (String.append_left_inj ".").mp ((String.append_left_inj _).mp same)

/-- After a run from a base table on, one more action changes the alias of a table in scope, and what
is written for each of its columns, exactly if it brings the table in again. -/
theorem tableAlias_after_run {base : String} {actions : List Action}
    (ha : ∀ a ∈ actions, a.Extends) {start d : Draft}
    (reached : d = start.run w (.setBaseTable base :: actions)) {a : Action} (one : a.Extends)
    (there : table ∈ d.tables) :
    ((d.perform w a).draft.tableAlias table = d.tableAlias table ↔ ¬ a.Rebrings w d table) ∧
    ∀ dialect column,
      (Sql.columnRef (d.perform w a).draft.tableAliases table column).text dialect =
          (Sql.columnRef d.tableAliases table column).text dialect ↔
        ¬ a.Rebrings w d table := by
  have aliased : AllAliased d := by
    rw [reached]
    exact run_keeps (d := (start.perform w (.setBaseTable base)).draft)
      (fun allowed kept => kept.perform allowed) (allAliased_setBaseTable start base) ha
  have alias_iff := tableAlias_perform_iff (w := w) aliased there one
  have named : d.tableAlias table ≠ "" := aliased _ (aliased.tableAlias_mem there)
  have named' : (d.perform w a).draft.tableAlias table ≠ "" :=
    aliased.perform one _ ((aliased.perform one).tableAlias_mem (mem_tables_perform one there))
  exact ⟨alias_iff, fun dialect column => (text_columnRef_eq_iff named named').trans alias_iff⟩

/-- Orders belong to customers. -/
def orderBook : Workbench where
  graph := { edges := [⟨"1", "orders", "customers", "customer_id", "id", none⟩] }
  bestDepth := 3
  dialect := .mysql

/-- Orders with their customers. -/
def withCustomers : List Action := [.addColumn "orders" "id", .addJoin "customers" none]

/-- All orders of these customers. -/
def backToOrders : Action := .addJoin "orders" (some "customers")

theorem extends_withCustomers : ∀ a ∈ withCustomers, a.Extends := by
  simp [withCustomers, Action.Extends]

/-- Orders with their customers, as a draft. -/
def customersOfOrders : Draft := run orderBook {} (.setBaseTable "orders" :: withCustomers)

theorem tableAlias_after_run_backToOrders :
    (∀ a ∈ withCustomers, a.Extends) ∧ backToOrders.Extends ∧
      ("orders" ∈ customersOfOrders.tables ∧
        (customersOfOrders.perform orderBook backToOrders).draft.tableAlias "orders" ≠
          customersOfOrders.tableAlias "orders") ∧
      ("customers" ∈ customersOfOrders.tables ∧ ∀ dialect column,
        (Sql.columnRef (customersOfOrders.perform orderBook backToOrders).draft.tableAliases
            "customers" column).text dialect =
          (Sql.columnRef customersOfOrders.tableAliases "customers" column).text dialect) := by
  have orders : "orders" ∈ customersOfOrders.tables := by decide
  have customers : "customers" ∈ customersOfOrders.tables := by decide
  have again : backToOrders.Rebrings orderBook customersOfOrders "orders" :=
    ⟨by decide, by rfl, by rfl, by decide⟩
  have once : ¬ backToOrders.Rebrings orderBook customersOfOrders "customers" := by
    rintro ⟨base, -⟩
    exact absurd base (by decide)
  have extends_ : backToOrders.Extends := trivial
  refine ⟨extends_withCustomers, extends_, ⟨orders, fun same => ?_⟩, customers,
    fun dialect column => ?_⟩
  · exact (tableAlias_after_run extends_withCustomers rfl extends_ orders).1.mp same again
  · exact ((tableAlias_after_run extends_withCustomers rfl extends_ customers).2 dialect
      column).mpr once

/-- The orders that were selected first are now those of the same customers. -/
theorem not_kept_backToOrders :
    (∀ a ∈ withCustomers, a.Extends) ∧ backToOrders.Extends ∧
      "orders" ∈ customersOfOrders.tables ∧ "customers" ∈ customersOfOrders.tables ∧
      (Sql.columnRef customersOfOrders.tableAliases "orders" "id").text .mysql = "ord.`id`" ∧
      (Sql.columnRef (customersOfOrders.perform orderBook backToOrders).draft.tableAliases
        "orders" "id").text .mysql = "ord1.`id`" :=
  ⟨extends_withCustomers, trivial, by decide, by decide, by decide +kernel, by decide +kernel⟩

end Draft

end QueryWorkbench
