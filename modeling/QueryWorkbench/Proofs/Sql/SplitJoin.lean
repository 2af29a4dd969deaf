/-
QueryWorkbench.Proofs.Sql.SplitJoin — a join by several pairs of columns, written as joins by one each.

The conditions of a group of joins are written one after the other with AND between them, and it does
not show where one ends and the next begins (`anded_eq`). So a join whose condition is written like
those of several joins of the same tables, under the same aliases, makes the same text as these do,
behind whatever joins there are (`gapped_insert`, by induction on their groups), and so does the query
that it ends the joins of (`generate_split`).
-/
import QueryWorkbench.Proofs.Query.JoinGroup
import QueryWorkbench.Proofs.Query.TableAlias
import QueryWorkbench.Proofs.Sql.Normal

namespace QueryWorkbench

variable {P Q : Type}

/-! ## Parts of a join -/

/-- A join by one pair of columns that stands for this pair in a join by several: tables and aliases,
the kind and the nested query are the same, and it has no condition of its own. -/
structure Join.Part (j : Join Q) (columns : String × String) (k : Join Q) : Prop where
  kind : k.kind = j.kind
  sourceTable : k.sourceTable = j.sourceTable
  sourceAlias : k.sourceAlias = j.sourceAlias
  sourceColumn : k.sourceColumn = columns.1
  targetTable : k.targetTable = j.targetTable
  targetAlias : k.targetAlias = j.targetAlias
  targetColumn : k.targetColumn = columns.2
  condition : k.condition = none
  subquery : k.subquery = j.subquery
  subqueryAlias : k.subqueryAlias = j.subqueryAlias

namespace Join.Part

variable {j k : Join Q} {columns : String × String}

theorem pair (h : j.Part columns k) : k.pair = j.pair := by
  rw [Join.pair, Join.pair, h.sourceTable, h.targetTable]

theorem map {j k : Join P} (h : j.Part columns k) (f : P → Q) : (j.map f).Part columns (k.map f) :=
  { h with subquery := congrArg (Option.map f) h.subquery }

theorem forall_mem {parts : List (Join Q)} {columns : List (String × String)}
    (each : List.Forall₂ j.Part columns parts) : ∀ k ∈ parts, ∃ c, j.Part c k := by
  induction each with
  | nil => exact fun _ hk => absurd hk List.not_mem_nil
  | cons part _ ih => exact List.forall_mem_cons.mpr ⟨⟨_, part⟩, ih⟩

end Join.Part

/-- Tables go by the same aliases with a join as with its parts. -/
theorem Clauses.tableAliases_split {c : Clauses Q} {j : Join Q} {parts : List (Join Q)}
    (nonempty : parts ≠ []) (each : ∀ k ∈ parts, ∃ columns, j.Part columns k) :
    { c with joins := c.joins ++ parts }.tableAliases =
      { c with joins := c.joins ++ [j] }.tableAliases := by
  obtain ⟨first, rest, rfl⟩ := List.exists_cons_of_ne_nil nonempty
  obtain ⟨⟨_, part⟩, rest_parts⟩ := List.forall_mem_cons.mp each
  simp only [tableAliases, List.foldl_append, List.foldl_cons, List.foldl_nil, part.targetTable,
    part.targetAlias]
  -- The first part writes what the join writes, and the others write it again.
  generalize List.foldl _ _ c.joins = entries
  clear part each nonempty
  induction rest with
  | nil => rfl
  | cons k rest ih =>
    obtain ⟨⟨_, part⟩, rest_parts⟩ := List.forall_mem_cons.mp rest_parts
    rw [List.foldl_cons, part.targetTable, part.targetAlias, Assoc.put_put_self, ih rest_parts]

namespace Sql

variable {d : Dialect} {layout : Layout}

/-! ## Conditions one after the other -/

/-- Conditions with AND in front of each. -/
def anded (d : Dialect) (conditions : List (List Phrase)) : List Char :=
  conditions.flatMap fun c => " AND".toList ++ spaced (c.map (Phrase.chars d))

theorem anded_append (conditions more : List (List Phrase)) :
    anded d (conditions ++ more) = anded d conditions ++ anded d more :=
  List.flatMap_append

/-- The text of conditions with AND between them has one AND less. -/
theorem anded_eq {conditions : List (List Phrase)} (nonempty : conditions ≠ []) :
    anded d conditions = " AND".toList ++
      spaced (([[.word "AND"]].intercalate conditions).map (Phrase.chars d)) := by
  obtain ⟨first, rest, rfl⟩ := List.exists_cons_of_ne_nil nonempty
  have and_ : Phrase.chars d [.word "AND"] = "AND".toList := Phrase.toList_text_singleton _
  have behind : spaced ((rest.flatMap fun c => [[.word "AND"]] ++ c).map (Phrase.chars d)) =
      anded d rest := by
    induction rest with
    | nil => rfl
    | cons c rest ih =>
      rw [List.flatMap_cons, List.map_append, spaced_append, ih (List.cons_ne_nil _ _),
        List.map_append, List.map_singleton, and_, List.singleton_append, spaced_cons]
      simp [anded]
  rw [intercalate_cons, List.map_append, spaced_append, behind, ← List.append_assoc]
  rfl

/-- The equality of two columns under their aliases. -/
def equality (d : Dialect) (sourceAlias targetAlias : String) (columns : String × String) : String :=
  sourceAlias ++ "." ++ d.quote columns.1 ++ " = " ++ targetAlias ++ "." ++ d.quote columns.2

/-- What the parts of a join are written as. -/
theorem anded_parts {j : Join Q} {columns : List (String × String)} {parts : List (Join Q)}
    (each : List.Forall₂ j.Part columns parts) :
    anded d (parts.map joinCondition) =
      columns.flatMap fun c => " AND ".toList ++ (equality d j.sourceAlias j.targetAlias c).toList := by
  induction each with
  | nil => rfl
  | @cons c k _ _ part _ ih =>
    have condition : joinCondition k = [[.owner j.sourceAlias, .name c.1], [.word "="],
        [.owner j.targetAlias, .name c.2]] := by
      simp only [joinCondition, part.condition, given, Option.filter_none, part.sourceAlias,
        part.sourceColumn, part.targetAlias, part.targetColumn]
    rw [List.map_cons, anded, List.flatMap_cons, ← anded, ih, List.flatMap_cons, condition]
    simp [Phrase.chars, equality, Phrase.text, Token.text]

/-! ## Groups -/

theorem gapped_append (fs gs : List Fragment) :
    gapped d layout (fs ++ gs) = gapped d layout fs ++ gapped d layout gs :=
  List.flatMap_append

/-- A row is its gap and phrases with spaces between them. -/
theorem gapped_row (gap : Gap) (p : Phrase) (ps : List Phrase) :
    gapped d layout (row gap (p :: ps)) =
      (gap.text layout).toList ++ (p.chars d ++ spaced (ps.map (Phrase.chars d))) := by
  have space : (Gap.space.text layout).toList = [' '] := by cases layout <;> rfl
  simp only [row, gapped, List.flatMap_cons, List.flatMap_map, space, spaced, List.append_assoc]
  rfl

/-- Groups have the same text if they join the same target in the same way, and their conditions are
written alike. -/
theorem gapped_joinFragments_congr {g h : JoinGroup String} (kind : g.first.kind = h.first.kind)
    (target : joinTarget g.first = joinTarget h.first)
    (conditions : anded d (g.members.map joinCondition) = anded d (h.members.map joinCondition)) :
    gapped d layout (joinFragments g) = gapped d layout (joinFragments h) := by
  have between (g : JoinGroup String) : anded d (g.members.map joinCondition) = _ :=
    anded_eq (List.cons_ne_nil _ _)
  rw [between, between] at conditions
  rw [joinFragments, joinFragments, gapped_append, gapped_append, kind, target, gapped_row .deeper,
    gapped_row .deeper, List.append_cancel_left conditions]

/-! ## Levels -/

/-- What stands between other fragments matters by its text only. -/
theorem render_append_congr {head fs gs : List Fragment} (nonempty : head ≠ [])
    (same : gapped d layout fs = gapped d layout gs) (behind : List Fragment) :
    render d layout (head ++ (fs ++ behind)) = render d layout (head ++ (gs ++ behind)) := by
  obtain ⟨first, rest, rfl⟩ := List.exists_cons_of_ne_nil nonempty
  rw [← String.toList_inj, List.cons_append, List.cons_append, toList_render_cons,
    toList_render_cons]
  simp only [gapped_append, same]

/-- The joins stand between two parts of a level that depend on them by the aliases alone. -/
theorem exists_fragments_around (d : Dialect) (c : Clauses String)
    (aliases : List (String × String)) :
    ∃ head behind : List Fragment, head ≠ [] ∧ ∀ joins : List (Join String),
      { c with joins := joins }.tableAliases = aliases → fragments d { c with joins := joins } =
        head ++ ((JoinGroup.ofJoins joins).flatMap joinFragments ++ behind) := by
  let paging := pagingOf d c.limit !(c.sortings.getD []).isEmpty
  refine ⟨cteFragments d c.ctes ++ selectFragments aliases c.fields paging.top? ++
      row .line (sourcePhrases c.source),
    conditionFragments aliases (c.conditions.getD []) ++
      (groupingFragments aliases (c.groupings.getD []) ++ (unionFragments c.unions ++
        (sortingFragments aliases (c.sortings.getD []) ++ pagingFragments paging))), ?_, ?_⟩
  · simp [row, sourcePhrases]
  · rintro joins rfl
    simp only [fragments, List.append_assoc, paging]

section

variable {j : Join String} {parts : List (Join String)} (nonempty : parts ≠ [])
  (each : ∀ k ∈ parts, ∃ columns, j.Part columns k)
  (written : anded d [joinCondition j] = anded d (parts.map joinCondition))
include nonempty each written

/-- Behind groups of joins a join has the same text as its parts: together they go into the group of
their tables, or they make a new one. -/
theorem gapped_insert (groups : List (JoinGroup String)) :
    gapped d layout ((JoinGroup.insert j groups).flatMap joinFragments) =
      gapped d layout ((JoinGroup.insertAll groups parts).flatMap joinFragments) := by
  have pair : ∀ k ∈ parts, k.pair = j.pair := fun k hk => (each k hk).elim fun _ part => part.pair
  induction groups with
  | nil =>
    obtain ⟨first, rest, rfl⟩ := List.exists_cons_of_ne_nil nonempty
    obtain ⟨_, part⟩ := each first (List.mem_cons_self ..)
    have alike : ∀ k ∈ rest, k.pair = first.pair := fun k hk =>
      (pair k (List.mem_cons_of_mem _ hk)).trans part.pair.symm
    have grouped : JoinGroup.insertAll [] (first :: rest) = [⟨first, rest⟩] := by
      have all := JoinGroup.ofJoins_cons_append alike (List.forall_mem_nil _)
      rwa [List.append_nil] at all
    rw [grouped, JoinGroup.insert, List.flatMap_singleton, List.flatMap_singleton]
    refine gapped_joinFragments_congr part.kind.symm ?_ written
    simp only [joinTarget, targetAlias, part.subquery, part.subqueryAlias, part.targetTable,
      part.targetAlias]
  | cons g groups ih =>
    rw [JoinGroup.insert, JoinGroup.insertAll_cons]
    split
    · rename_i same
      have here : (parts.filter fun k => k.pair = g.first.pair) = parts :=
        List.filter_eq_self.mpr fun k hk => decide_eq_true ((pair k hk).trans same.symm)
      have left : (parts.filter fun k => k.pair ≠ g.first.pair) = [] :=
        List.filter_eq_nil_iff.mpr fun k hk => by simp [(pair k hk).trans same.symm]
      rw [here, left, List.flatMap_cons, List.flatMap_cons, gapped_append, gapped_append]
      congr 1
      refine gapped_joinFragments_congr rfl rfl ?_
      rw [JoinGroup.members, JoinGroup.members, ← List.cons_append, ← List.cons_append,
        List.map_append, List.map_append, anded_append, anded_append, List.map_singleton, written]
    · rename_i other
      have here : (parts.filter fun k => k.pair = g.first.pair) = [] :=
        List.filter_eq_nil_iff.mpr fun k hk => by simpa [pair k hk] using fun h => other h.symm
      have left : (parts.filter fun k => k.pair ≠ g.first.pair) = parts :=
        List.filter_eq_self.mpr fun k hk => by simpa [pair k hk] using fun h => other h.symm
      rw [here, left, List.append_nil, List.flatMap_cons, List.flatMap_cons, gapped_append,
        gapped_append, ih]

/-- A level that a join ends the joins of is written as with its parts in place of it. -/
theorem render_split (c : Clauses String) :
    render d layout (fragments d { c with joins := c.joins ++ [j] }) =
      render d layout (fragments d { c with joins := c.joins ++ parts }) := by
  have aliases := Clauses.tableAliases_split (c := c) nonempty each
  obtain ⟨head, behind, nonempty_head, split⟩ := exists_fragments_around d c
    { c with joins := c.joins ++ [j] }.tableAliases
  rw [split _ rfl, split _ aliases]
  refine render_append_congr nonempty_head ?_ behind
  rw [JoinGroup.ofJoins_append, JoinGroup.ofJoins_append]
  exact gapped_insert nonempty each written _

end

/-- So is a query: nested queries make the same text in the join as in its parts. -/
theorem generate_split (c : Clauses Query) {j : Join Query} {parts : List (Join Query)}
    (nonempty : parts ≠ []) (each : ∀ k ∈ parts, ∃ columns, j.Part columns k)
    (written : anded d [joinCondition j] = anded d (parts.map joinCondition)) :
    generate d layout (.mk { c with joins := c.joins ++ [j] }) =
      generate d layout (.mk { c with joins := c.joins ++ parts }) := by
  have each_mapped : ∀ k ∈ parts.map (Join.map (compactText d)),
      ∃ columns, (j.map (compactText d)).Part columns k :=
    List.forall_mem_map.mpr fun k hk => (each k hk).imp fun _ part => part.map _
  have split : render d layout (fragments d _) = _ :=
    render_split (by simpa using nonempty) each_mapped (by rw [List.map_map]; exact written)
      (c.map (compactText d))
  simpa only [generate, queryFragments, Query.clauses, Clauses.map, List.map_append,
    List.map_singleton] using split

end Sql

end QueryWorkbench
