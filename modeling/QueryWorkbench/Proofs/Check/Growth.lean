/-
QueryWorkbench.Proofs.Check.Growth — the check finds nothing wrong with grown joins.

The scope that the check builds up holds at least the tables in scope, and it has bound no alias
but those that the joins have given (`walkJoins_grown`), so every further join that fits passes.
Columns that are selected once each pass as well (`duplicateIssues_eq_nil`).
-/
import QueryWorkbench.Check.Structure
import QueryWorkbench.Proofs.Draft.Growth

namespace QueryWorkbench.Check

variable {Q : Type} {graph : Option SchemaGraph} {g : SchemaGraph} {named : List String}

/-! ## One join more -/

theorem walkJoins_snoc (scope : Scope) (joins : List (Join Q)) (j : Join Q) :
    walkJoins graph named scope (joins ++ [j]) =
      ((walkJoins graph named scope joins).1 ++
          joinIssues graph named (walkJoins graph named scope joins).2 j,
        (walkJoins graph named scope joins).2.addJoin j) := by
  induction joins generalizing scope with
  | nil => simp [walkJoins]
  | cons k rest ih => simp [walkJoins, ih]

theorem get?_putNew_of_ne {κ α : Type} [DecidableEq κ] {key other : κ} (value : α)
    (entries : List (κ × α)) (h : other ≠ key) :
    Assoc.get? other (Assoc.putNew key value entries) = Assoc.get? other entries := by
  rw [Assoc.putNew]
  split
  · rfl
  · rw [Assoc.get?_put, if_neg h.symm]

theorem columnIssues_eq_nil {item : Option String} {table column : String}
    (h : g.NamesColumn table column) : columnIssues g item table column = [] := by
  obtain ⟨column_ne, n, found, has⟩ := h
  simp [columnIssues, found, column_ne, has]

theorem targetIssues_eq_nil {s : Source Query} {joins : List (Join Query)} {j : Join Query}
    (fits : Fits g s joins j) : targetIssues (some g) named j = [] := by
  have known : tableKnown (some g) named j.targetTable = true := by
    simp [tableKnown, fits.target_column.isSome_node?]
  simp [targetIssues, fits.subquery, fits.condition, known,
    columnIssues_eq_nil fits.source_column, columnIssues_eq_nil fits.target_column]

/-- What the check knows after grown joins: no issue, every table in scope, no alias bound but
those given. -/
structure Passed (g : SchemaGraph) (s : Source Query) (joins : List (Join Query))
    (walked : List Issue × Scope) : Prop where
  no_issue : walked.1 = []
  names : ∀ t ∈ s.table :: joins.map (·.targetTable), t ∈ walked.2.names
  bound : ∀ a ∉ s.aliasName :: joins.map (·.targetAlias), Assoc.get? a walked.2.bound = none

theorem passed_ofSource {s : Source Query} (table_ne : s.table ≠ "") (alias_ne : s.aliasName ≠ "") :
    Passed g s [] ([], Scope.ofSource s) := by
  refine ⟨rfl, ?_, ?_⟩
  · intro t ht
    obtain rfl : t = s.table := by simpa using ht
    simp [Scope.ofSource, table_ne]
  · intro a ha
    have other : ¬ s.aliasName = a := fun h => ha (h ▸ List.mem_cons_self ..)
    simp [Scope.ofSource, alias_ne, Assoc.get?, other]

theorem passed_snoc (hg : g.WellFormed) {s : Source Query} {joins : List (Join Query)}
    {j : Join Query} {walked : List Issue × Scope} (passed : Passed g s joins walked)
    (fits : Fits g s joins j) :
    Passed g s (joins ++ [j])
      (walked.1 ++ joinIssues (some g) named walked.2 j, walked.2.addJoin j) := by
  refine ⟨?_, ?_, ?_⟩
  · have sourced : j.sourceTable ∈ walked.2.names := passed.names _ fits.source_mem
    have unbound := passed.bound _ fits.alias_new
    simp [passed.no_issue, joinIssues, sourced, unbound, targetIssues_eq_nil fits]
  · intro t ht
    have target_ne : j.targetTable ≠ "" := by
      obtain ⟨_, n, found, _⟩ := fits.target_column
      have same : n.id = j.targetTable := by simpa using List.find?_some found
      exact same ▸ hg.ids_nonempty _ (List.mem_map.mpr ⟨n, List.mem_of_find?_eq_some found, rfl⟩)
    rw [List.map_append, ← List.cons_append] at ht
    rcases List.mem_append.mp ht with ht | ht
    · exact List.mem_append_left _ (passed.names t ht)
    · obtain rfl : t = j.targetTable := by simpa using ht
      simp [Scope.addJoin, target_ne]
  · intro a ha
    rw [List.map_append, ← List.cons_append, List.mem_append, not_or] at ha
    have other : a ≠ j.targetAlias := by simpa using ha.2
    rw [Scope.addJoin, get?_putNew_of_ne _ _ other]
    exact passed.bound a ha.1

/-- Grown joins pass the check. -/
theorem walkJoins_grown (hg : g.WellFormed) {s : Source Query} {joins : List (Join Query)}
    (table_ne : s.table ≠ "") (alias_ne : s.aliasName ≠ "") (grown : Grown g s joins) :
    Passed g s joins (walkJoins (some g) named (Scope.ofSource s) joins) := by
  induction grown with
  | nil => exact passed_ofSource table_ne alias_ne
  | snoc _ fits ih =>
    rw [walkJoins_snoc]
    exact passed_snoc hg ih fits

/-! ## Selected columns -/

/-- The columns that are selected as such, not as part of an expression. -/
def selectedColumns (fields : List (Field Q)) : List (String × String) :=
  (fields.filter fun x => (Sql.given x.expression).isNone).map fun x => (x.table, x.column)

theorem duplicateIssues_eq_nil {fields : List (Field Q)} : ∀ {seen : List (String × String)},
    (∀ p ∈ seen, p ∉ selectedColumns fields) → (selectedColumns fields).Nodup →
    duplicateIssues seen fields = [] := by
  induction fields with
  | nil => intro seen _ _; rfl
  | cons x rest ih =>
    intro seen apart nodup
    by_cases plain : (Sql.given x.expression).isNone = true
    · have cons : selectedColumns (x :: rest) = (x.table, x.column) :: selectedColumns rest := by
        simp [selectedColumns, plain]
      rw [cons] at apart nodup
      have here : (x.table, x.column) ∉ selectedColumns rest := (List.nodup_cons.mp nodup).1
      have unseen : (x.table, x.column) ∉ seen := fun h => apart _ h (List.mem_cons_self ..)
      have later : ∀ p ∈ seen, p ∉ selectedColumns rest :=
        fun p hp h => apart p hp (List.mem_cons_of_mem _ h)
      have nodup_rest := (List.nodup_cons.mp nodup).2
      rw [duplicateIssues, if_neg unseen]
      split
      · exact ih later nodup_rest
      · refine ih (fun p hp => ?_) nodup_rest
        rcases List.mem_cons.mp hp with rfl | hp
        · exact here
        · exact later p hp
    · have skip : selectedColumns (x :: rest) = selectedColumns rest := by
        simp [selectedColumns, plain]
      have given : (x.expression.filter (· ≠ "")).isSome = true :=
        Option.isSome_iff_ne_none.mpr fun none => plain (Option.isNone_iff_eq_none.mpr none)
      rw [skip] at apart nodup
      rw [duplicateIssues, given, Bool.true_or, Bool.true_or, if_pos rfl]
      exact ih apart nodup

end QueryWorkbench.Check
