/-
QueryWorkbench.Proofs.Analysis.RoundTrip — generated SQL is analysed back.

A level whose tables go by one alias each is generated, scrubbed and analysed: the report lists the
tables that FROM and the joins bring in, and relates the tables of the emitted equalities
(`analyze_generate`).

## How the proof goes

Scrubbing makes of the generated text, in either dialect and layout, the text of one `SelectText`
(`exists_selectText`), and what a report on such a text says is known (`exists_analyzed_text` puts
the two together). What is left are the names. The tables of the text are those that the level
brings in (`entrants_eq`), and an alias of such a table is resolved to the table
(`resolve_of_brought`), so that every equality relates what `shownPair` says (`relate_equation`).

## The side conditions

* `Flat`: a nested query brings in tables of its own, and copied text may hold any SQL at all.
* `Named`: a name is taken out of its quotes and read back only if it is made of word characters and
  is no keyword of the patterns. A schema of its own would be written in front of a table that may
  already have one.
* `Aliased`: aliases are resolved by their text in small letters, and a table is looked up by its
  bare name too. Two tables with one alias, or an alias that is the bare name of another table,
  could not be told apart.
* The limits admit the text, its FROM and one JOIN for each group of joins.

An alias is resolved by the tables of the text alone. A join that starts at a table that the text
does not bring in is therefore reported under its alias, and `shown_ne_pair_ghosts` is such a join.
-/
import QueryWorkbench.Proofs.Analysis.Findings
import QueryWorkbench.Proofs.Query.JoinGroup
import QueryWorkbench.Proofs.Sql.SelectShape

namespace QueryWorkbench.Sql

open Analysis Text

/-! ## Nested queries do not matter -/

section

variable {P Q : Type} (f : P → Q)

/-- Joins are written alike whatever stands for nested queries. -/
theorem map_joinText_ofJoins (joins : List (Join P)) :
    (JoinGroup.ofJoins (joins.map (Join.map f))).map joinText =
      (JoinGroup.ofJoins joins).map joinText := by
  rw [JoinGroup.ofJoins_map, List.map_map]
  refine List.map_congr_left fun g _ => ?_
  show JoinText.mk _ _ _ ((g.others.map (Join.map f)).map equation) = _
  rw [List.map_map]
  rfl

end

/-! ## Analysing the text of a level -/

/-- Generated SQL is analysed without a warning, as a text with the tables and the joins of its
level. -/
theorem exists_analyzed_text (d : Dialect) (layout : Layout) {q : Query} {limits : Limits}
    (flat : Flat q.clauses) (named : Named q.clauses)
    (short : ((generate d layout q).length : Int) ≤ limits.maxLength)
    (some : 1 ≤ limits.maxMatches)
    (enough : ((JoinGroup.ofJoins q.clauses.joins).length : Int) ≤ limits.maxMatches) :
    ∃ t : SelectText, t.source = entrant q.clauses.source.table q.clauses.source.aliasName ∧
      t.joins = (JoinGroup.ofJoins q.clauses.joins).map joinText ∧
      analyze limits (generate d layout q) =
        (⟨(t.entrants.map Entrant.full).eraseDupsBy sameName,
          ((t.joins.flatMap JoinText.equations).filterMap t.findings.relate).eraseDupsBy sameTables,
          t.findings.aliases⟩, []) := by
  obtain ⟨t, wellFormed, source, written, scrubbed⟩ :=
    exists_selectText (d := d) (flat.map (compactText d)) (named.map (compactText d))
  have joins : t.joins = (JoinGroup.ofJoins q.clauses.joins).map joinText :=
    written.trans (map_joinText_ofJoins (compactText d) q.clauses.joins)
  have text : scrubChars (generate d layout q).toList = t.chars := scrubbed layout
  have length : (t.joins.length : Int) ≤ limits.maxMatches := by
    rw [joins, List.length_map]
    exact enough
  refine ⟨t, source, joins, ?_⟩
  rw [analyze, if_neg (Int.not_lt.mpr short), text, SelectText.reportOf_chars wellFormed some length]
  exact congrArg (Prod.mk _) (SelectText.warningsOf_events limits t.entrants)

section

variable {Q : Type}

/-- An equality relates what its aliases stand for, unless that is one table. -/
theorem relate_equation_of_resolve {f : Findings} (undefined : f.defined = []) {j : Join Q}
    {source target : String} (source_eq : f.resolve none j.sourceAlias = source)
    (target_eq : f.resolve none j.targetAlias = target) :
    f.relate (equation j) = Option.guard (fun p => !sameName p.source p.target)
      ⟨source, target,
        some (source ++ "." ++ j.sourceColumn ++ " = " ++ target ++ "." ++ j.targetColumn),
        some j.sourceColumn, some j.targetColumn⟩ := by
  simp only [Findings.relate, equation, undefined, source_eq, target_eq, Option.guard, sameName]
  simp

/-- The equalities of a text relate what the joins are read as, in the order of the groups. -/
theorem filterMap_relate_equations {joins : List (Join Q)} {f : Findings} {read : Join Q → JoinedPair}
    (reads : ∀ j ∈ joins, f.relate (equation j) =
      Option.guard (fun p => !sameName p.source p.target) (read j)) :
    (((JoinGroup.ofJoins joins).map joinText).flatMap JoinText.equations).filterMap f.relate =
      (((JoinGroup.ofJoins joins).flatMap JoinGroup.members).map read).filter
        fun p => !sameName p.source p.target := by
  have equations : ((JoinGroup.ofJoins joins).map joinText).flatMap JoinText.equations =
      ((JoinGroup.ofJoins joins).flatMap JoinGroup.members).map equation := by
    rw [List.flatMap_map, List.map_flatMap]
    rfl
  rw [equations, List.filterMap_map, ← List.filterMap_eq_filter, List.filterMap_map]
  refine List.filterMap_congr fun j hj => ?_
  rw [Function.comp_apply, Function.comp_apply]
  exact reads j (JoinGroup.exists_mem_ofJoins.mp (List.mem_flatMap.mp hj))

end

/-! ## One alias for every table -/

variable {Q : Type}

/-- The tables that a level names in FROM and in its joins. -/
def joinedTables (c : Clauses Q) : List String :=
  c.source.table :: c.joins.flatMap fun j => [j.sourceTable, j.targetTable]

/-- The tables that FROM and the joins bring in, in the order of the text. -/
def broughtTables (c : Clauses Q) : List String :=
  c.source.table :: (JoinGroup.ofJoins c.joins).map fun g => g.first.targetTable

/-- The aliases of FROM and of the joins are those that `aliasFor` gives their tables. Different
tables have different aliases, and none goes by the bare name of another one, all in small
letters. -/
structure Aliased (c : Clauses Q) (aliasFor : String → String) : Prop where
  source : c.source.aliasName = aliasFor c.source.table
  joins : ∀ j ∈ c.joins,
    j.sourceAlias = aliasFor j.sourceTable ∧ j.targetAlias = aliasFor j.targetTable
  injective : ∀ t ∈ joinedTables c, ∀ u ∈ joinedTables c,
    lower (aliasFor t) = lower (aliasFor u) → t = u
  apart : ∀ t ∈ joinedTables c, ∀ u ∈ joinedTables c,
    lower (aliasFor t) = lower (bareName u) → t = u

theorem joinedTables_source (c : Clauses Q) : c.source.table ∈ joinedTables c :=
  List.mem_cons_self ..

theorem joinedTables_join {c : Clauses Q} {j : Join Q} (hj : j ∈ c.joins) :
    j.sourceTable ∈ joinedTables c ∧ j.targetTable ∈ joinedTables c := by
  constructor
  · exact List.mem_cons_of_mem _ (List.mem_flatMap.mpr ⟨j, hj, by simp⟩)
  · exact List.mem_cons_of_mem _ (List.mem_flatMap.mpr ⟨j, hj, by simp⟩)

theorem joined_of_brought {c : Clauses Q} {t : String} (ht : t ∈ broughtTables c) :
    t ∈ joinedTables c := by
  rcases List.mem_cons.mp ht with rfl | ht
  · exact joinedTables_source c
  · obtain ⟨g, hg, rfl⟩ := List.mem_map.mp ht
    exact (joinedTables_join (JoinGroup.exists_mem_ofJoins.mp ⟨g, hg, List.mem_cons_self ..⟩)).2

/-- Every join brings in its target, if no other one does. -/
theorem brought_target {c : Clauses Q} {j : Join Q} (hj : j ∈ c.joins) :
    j.targetTable ∈ broughtTables c := by
  obtain ⟨g, hg, member⟩ := JoinGroup.exists_mem_ofJoins.mpr hj
  have pair : j.pair = g.first.pair := JoinGroup.pair_of_mem_members hg member
  have target : g.first.targetTable = j.targetTable := (congrArg Prod.snd pair).symm
  exact List.mem_cons_of_mem _ (List.mem_map.mpr ⟨g, hg, target⟩)

/-- The table that a join starts at: its source, or the alias of its source if the text does not
bring the source in. -/
def shownSource (c : Clauses Q) (j : Join Q) : String :=
  if j.sourceTable ∈ broughtTables c then j.sourceTable else j.sourceAlias

/-- The pair of tables that a join relates in a report. -/
def shownPair (c : Clauses Q) (j : Join Q) : JoinedPair :=
  ⟨shownSource c j, j.targetTable,
    some (shownSource c j ++ "." ++ j.sourceColumn ++ " = " ++
      j.targetTable ++ "." ++ j.targetColumn),
    some j.sourceColumn, some j.targetColumn⟩

/-- What the aliases of a text stand for. -/
def textAliases (c : Clauses Q) (aliasFor : String → String) : List (String × String) :=
  ((broughtTables c).map fun u => entrant u (aliasFor u)).foldl Entrant.enter []

section

variable {c : Clauses Q} {aliasFor : String → String}
variable (named : Named c) (aliased : Aliased c aliasFor)
include named aliased

theorem names_of_joined {t : String} (ht : t ∈ joinedTables c) :
    IsTable t ∧ IsName (aliasFor t) := by
  rcases List.mem_cons.mp ht with rfl | ht
  · exact ⟨named.source.1, aliased.source ▸ named.source.2⟩
  · obtain ⟨j, hj, ht⟩ := List.mem_flatMap.mp ht
    obtain ⟨source, sourceAlias, -, target, targetAlias, -⟩ := named.joins j hj
    rw [(aliased.joins j hj).1] at sourceAlias
    rw [(aliased.joins j hj).2] at targetAlias
    simp only [List.mem_cons, List.not_mem_nil, or_false] at ht
    rcases ht with rfl | rfl
    · exact ⟨source, sourceAlias⟩
    · exact ⟨target, targetAlias⟩

omit named in
/-- The tables of the text under their aliases. -/
theorem entrants_eq {t : SelectText} (source : t.source = entrant c.source.table c.source.aliasName)
    (joins : t.joins = (JoinGroup.ofJoins c.joins).map joinText) :
    t.entrants = (broughtTables c).map fun u => entrant u (aliasFor u) := by
  rw [SelectText.entrants, source, joins, broughtTables, List.map_cons, List.map_map, List.map_map,
    aliased.source]
  congr 1
  refine List.map_congr_left fun g hg => ?_
  have first : g.first ∈ c.joins := JoinGroup.exists_mem_ofJoins.mp ⟨g, hg, List.mem_cons_self ..⟩
  show entrant g.first.targetTable g.first.targetAlias = _
  rw [(aliased.joins g.first first).2]
  rfl

/-- What goes by the alias of a table, among the tables of the text. -/
theorem eq_of_entrant {t u : String} (ht : t ∈ joinedTables c) (hu : u ∈ broughtTables c)
    (same : lower (entrant u (aliasFor u)).aliasName = lower (aliasFor t) ∨
      lower (entrant u (aliasFor u)).table = lower (aliasFor t)) : u = t := by
  have hu := joined_of_brought hu
  obtain ⟨table, name⟩ := names_of_joined named aliased hu
  obtain ⟨-, -, bare, own, -⟩ := entrant_of_isTable table name
  rw [bare, own] at same
  rcases same with same | same
  · exact aliased.injective u hu t ht same
  · exact (aliased.apart t ht u hu same.symm).symm

/-- The alias of a table that the text brings in stands for it. -/
theorem resolve_of_brought {t : String} (ht : t ∈ broughtTables c) {f : Findings}
    (found : f.aliases = textAliases c aliasFor) : f.resolve none (aliasFor t) = t := by
  obtain ⟨table, name⟩ := names_of_joined named aliased (joined_of_brought ht)
  obtain ⟨-, -, -, own, -⟩ := entrant_of_isTable table name
  have known : Assoc.get? (lower (aliasFor t)) f.aliases = some t := by
    rw [found, textAliases]
    refine get?_foldl_enter (fun e he same => ?_) (Or.inr ?_)
    · obtain ⟨u, hu, rfl⟩ := List.mem_map.mp he
      obtain rfl := eq_of_entrant named aliased (joined_of_brought ht) hu same
      exact (entrant_of_isTable table name).2.1
    · exact ⟨_, List.mem_map.mpr ⟨t, ht, rfl⟩, congrArg lower own⟩
  rw [Findings.resolve, known, Option.getD_some]

/-- The alias of another table stands for itself. -/
theorem resolve_of_not_brought {t : String} (ht : t ∈ joinedTables c) (absent : t ∉ broughtTables c)
    {f : Findings} (found : f.aliases = textAliases c aliasFor) :
    f.resolve none (aliasFor t) = aliasFor t := by
  have unknown : Assoc.get? (lower (aliasFor t)) f.aliases = none := by
    rw [found, textAliases, get?_foldl_enter_of_ne fun e he => ?_]
    · rfl
    · obtain ⟨u, hu, rfl⟩ := List.mem_map.mp he
      have other : u ≠ t := fun same => absent (same ▸ hu)
      exact ⟨fun same => other (eq_of_entrant named aliased ht hu (Or.inl same)),
        fun same => other (eq_of_entrant named aliased ht hu (Or.inr same))⟩
  rw [Findings.resolve, unknown, Option.getD_none]
  rfl

/-- The equality of a join relates its tables, unless they are the same. -/
theorem relate_equation {j : Join Q} (hj : j ∈ c.joins) {f : Findings} (undefined : f.defined = [])
    (found : f.aliases = textAliases c aliasFor) :
    f.relate (equation j) =
      Option.guard (fun p => !sameName p.source p.target) (shownPair c j) := by
  have source : f.resolve none j.sourceAlias = shownSource c j := by
    rw [shownSource, (aliased.joins j hj).1]
    split
    · rename_i there
      exact resolve_of_brought named aliased there found
    · rename_i absent
      exact resolve_of_not_brought named aliased (joinedTables_join hj).1 absent found
  have target : f.resolve none j.targetAlias = j.targetTable := by
    rw [(aliased.joins j hj).2]
    exact resolve_of_brought named aliased (brought_target hj) found
  exact relate_equation_of_resolve undefined source target

/-- The equalities of the text relate the tables of the joins, in the order of the groups. -/
theorem filterMap_relate {t : SelectText}
    (source : t.source = entrant c.source.table c.source.aliasName)
    (joins : t.joins = (JoinGroup.ofJoins c.joins).map joinText) :
    (t.joins.flatMap JoinText.equations).filterMap t.findings.relate =
      (((JoinGroup.ofJoins c.joins).flatMap JoinGroup.members).map (shownPair c)).filter
        fun p => !sameName p.source p.target := by
  have found : t.findings.aliases = textAliases c aliasFor := by
    rw [textAliases, ← entrants_eq aliased source joins]
    rfl
  rw [joins]
  exact filterMap_relate_equations fun j hj => relate_equation named aliased hj rfl found

/-- The full names of the tables of the text. -/
theorem map_full_entrants {t : SelectText}
    (source : t.source = entrant c.source.table c.source.aliasName)
    (joins : t.joins = (JoinGroup.ofJoins c.joins).map joinText) :
    t.entrants.map Entrant.full = broughtTables c := by
  rw [entrants_eq aliased source joins, List.map_map]
  refine (List.map_congr_left fun u hu => ?_).trans (List.map_id _)
  obtain ⟨table, name⟩ := names_of_joined named aliased (joined_of_brought hu)
  exact (entrant_of_isTable table name).2.1

end

/-! ## Analysing generated text -/

/-- Generated SQL is analysed back, in both dialects and both layouts. The report lists the tables
that the text brings in, each one once, and relates every two tables by the first equality of
theirs that is emitted; an equality of a table with itself relates nothing. Names are compared in
small letters. -/
theorem analyze_generate (d : Dialect) (layout : Layout) {q : Query} {aliasFor : String → String}
    {limits : Limits} (flat : Flat q.clauses) (named : Named q.clauses)
    (aliased : Aliased q.clauses aliasFor)
    (short : ((generate d layout q).length : Int) ≤ limits.maxLength)
    (some : 1 ≤ limits.maxMatches)
    (enough : ((JoinGroup.ofJoins q.clauses.joins).length : Int) ≤ limits.maxMatches) :
    ∃ report, analyze limits (generate d layout q) = (report, []) ∧
      report.tables = (broughtTables q.clauses).eraseDupsBy sameName ∧
      report.joins =
        ((((JoinGroup.ofJoins q.clauses.joins).flatMap JoinGroup.members).map
          (shownPair q.clauses)).filter fun p => !sameName p.source p.target).eraseDupsBy
            sameTables := by
  obtain ⟨t, source, joins, analysed⟩ := exists_analyzed_text d layout flat named short some enough
  refine ⟨_, analysed, ?_, ?_⟩
  · rw [← map_full_entrants named aliased source joins]
  · rw [← filterMap_relate named aliased source joins]

/-- Ten orders with a note, and their customers; the join starts at the given table. -/
def ordersFrom (table aliasName : String) : Query :=
  .mk {
    source := { table := "orders", aliasName := "o" }
    joins := [{
      id := "j1", sourceTable := table, sourceAlias := aliasName, sourceColumn := "customer_id",
      targetTable := "customers", targetAlias := "c", targetColumn := "id" }]
    conditions := some [{
      id := "c1", table := "orders", column := "note", value := .str "sent FROM here" }]
    limit := some { count := 10 } }

/-- The first letter of a table. -/
def initial (table : String) : String := String.ofList (table.toList.take 1)

theorem flat_ordersFrom (table aliasName : String) : Flat (ordersFrom table aliasName).clauses := by
  refine ⟨rfl, rfl, rfl, ?_, ?_, ?_⟩
  · intro x hx
    cases hx
  · intro j hj
    obtain rfl := List.mem_singleton.mp hj
    exact ⟨rfl, rfl⟩
  · intro x hx
    obtain rfl := List.mem_singleton.mp hx
    exact ⟨rfl, nofun, nofun⟩

theorem isName_of_mem_ordersFrom : ∀ s ∈ ["orders", "customers", "ghosts", "o", "c", "g", "id",
    "customer_id", "note"], IsName s := by decide +kernel

theorem named_ordersFrom {table aliasName : String} (ht : IsName table) (ha : IsName aliasName) :
    Named (ordersFrom table aliasName).clauses := by
  have orders : IsTable "orders" := Or.inl (isName_of_mem_ordersFrom _ (by simp))
  have customers : IsTable "customers" := Or.inl (isName_of_mem_ordersFrom _ (by simp))
  have o : IsName "o" := isName_of_mem_ordersFrom _ (by simp)
  have c : IsName "c" := isName_of_mem_ordersFrom _ (by simp)
  have id : IsName "id" := isName_of_mem_ordersFrom _ (by simp)
  have customer : IsName "customer_id" := isName_of_mem_ordersFrom _ (by simp)
  have note : IsName "note" := isName_of_mem_ordersFrom _ (by simp)
  refine ⟨⟨orders, o⟩, rfl, ?_, ?_, ?_, ?_, ?_⟩
  · intro x hx
    cases hx
  · intro j hj
    obtain rfl := List.mem_singleton.mp hj
    exact ⟨Or.inl ht, ha, customer, customers, c, id⟩
  · intro x hx
    obtain rfl := List.mem_singleton.mp hx
    exact ⟨orders, Or.inr note⟩
  · intro g hg
    cases hg
  · intro s hs
    cases hs

theorem aliased_orders : Aliased (ordersFrom "orders" "o").clauses initial := by
  refine ⟨by decide, ?_, by decide +kernel, by decide +kernel⟩
  intro j hj
  obtain rfl := List.mem_singleton.mp hj
  decide

theorem aliased_ghosts : Aliased (ordersFrom "ghosts" "g").clauses initial := by
  refine ⟨by decide, ?_, by decide +kernel, by decide +kernel⟩
  intro j hj
  obtain rfl := List.mem_singleton.mp hj
  decide

theorem analyze_generate_orders :
    Flat (ordersFrom "orders" "o").clauses ∧ Named (ordersFrom "orders" "o").clauses ∧
      Aliased (ordersFrom "orders" "o").clauses initial ∧
      ∃ report, analyze ⟨1000, 10, 5⟩ (generate .sqlServer .pretty (ordersFrom "orders" "o")) =
          (report, []) ∧
        report.tables = (broughtTables (ordersFrom "orders" "o").clauses).eraseDupsBy sameName ∧
        report.joins =
          ((((JoinGroup.ofJoins (ordersFrom "orders" "o").clauses.joins).flatMap
            JoinGroup.members).map (shownPair (ordersFrom "orders" "o").clauses)).filter
              fun p => !sameName p.source p.target).eraseDupsBy sameTables := by
  have flat := flat_ordersFrom "orders" "o"
  have named : Named (ordersFrom "orders" "o").clauses :=
    named_ordersFrom (isName_of_mem_ordersFrom _ (by simp)) (isName_of_mem_ordersFrom _ (by simp))
  exact ⟨flat, named, aliased_orders,
    analyze_generate .sqlServer .pretty flat named aliased_orders (by decide +kernel) (by decide)
      (by decide)⟩

/-- A join that starts at a table that the text does not bring in is not reported under its two
tables: the alias of the source is not known. -/
theorem shown_ne_pair_ghosts :
    Flat (ordersFrom "ghosts" "g").clauses ∧ Named (ordersFrom "ghosts" "g").clauses ∧
      Aliased (ordersFrom "ghosts" "g").clauses initial ∧
      ((generate .mysql .compact (ordersFrom "ghosts" "g")).length : Int) ≤ 1000 ∧
      (analyze ⟨1000, 10, 5⟩ (generate .mysql .compact (ordersFrom "ghosts" "g"))).1.joins.map
          (fun p => (p.source, p.target)) ≠
        (ordersFrom "ghosts" "g").clauses.joins.map Join.pair := by
  have named : Named (ordersFrom "ghosts" "g").clauses :=
    named_ordersFrom (isName_of_mem_ordersFrom _ (by simp)) (isName_of_mem_ordersFrom _ (by simp))
  exact ⟨flat_ordersFrom "ghosts" "g", named, aliased_ghosts, by decide +kernel, by decide +kernel⟩

end QueryWorkbench.Sql
