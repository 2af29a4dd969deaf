/-
QueryWorkbench.Proofs.Analysis.Findings — what the tables of a text add up to.

When only tables are brought in, no name is defined, the tables are listed in order, and a name leads
to the last table that was entered under it (`get?_foldl_enter_eq`). The tables and the joins of a
report are the first ones of each kind, all names compared in small letters (`firstMentions_eq`,
`firstPairs_eq`).
-/
import Mathlib.Data.List.Basic
import QueryWorkbench.Proofs.Analysis.SelectText

namespace QueryWorkbench.Analysis

open Text

/-! ## First ones -/

/-- Whether two names are the same in small letters. -/
def sameName (s t : String) : Bool := lower s == lower t

/-- Whether two pairs relate the same tables, in either order. -/
def sameTables (j k : JoinedPair) : Bool :=
  (sameName j.source k.source && sameName j.target k.target) ||
    (sameName j.source k.target && sameName j.target k.source)

theorem firstMentions_eq (tables : List String) :
    firstMentions [] tables = tables.eraseDupsBy sameName := by
  have walk : ∀ (rest listed : List String), listed.reverse ++ firstMentions (listed.map lower) rest =
      List.eraseDupsBy.loop sameName rest listed := by
    intro rest
    induction rest with
    | nil =>
      intro listed
      rw [firstMentions, List.append_nil]
      rfl
    | cons t rest ih =>
      intro listed
      have seen : lower t ∈ listed.map lower ↔ listed.any (sameName t) = true := by
        simp only [List.mem_map, List.any_eq_true, sameName, beq_iff_eq]
        exact exists_congr fun _ => and_congr_right fun _ => eq_comm
      rw [firstMentions, List.eraseDupsBy.loop]
      by_cases known : lower t ∈ listed.map lower
      · rw [if_pos known, seen.mp known]
        exact ih listed
      · rw [if_neg known, Bool.eq_false_iff.mpr (mt seen.mpr known), ← ih (t :: listed)]
        simp
  exact walk tables []

theorem firstPairs_eq (pairs : List JoinedPair) :
    firstPairs [] pairs = pairs.eraseDupsBy sameTables := by
  have walk : ∀ rest listed : List JoinedPair, listed.reverse ++
      firstPairs (listed.map fun j => (lower j.source, lower j.target)) rest =
        List.eraseDupsBy.loop sameTables rest listed := by
    intro rest
    induction rest with
    | nil =>
      intro listed
      show listed.reverse ++ [] = listed.reverse
      rw [List.append_nil]
    | cons j rest ih =>
      intro listed
      have seen : ((lower j.source, lower j.target) ∈
            listed.map (fun j => (lower j.source, lower j.target)) ∨
          (lower j.target, lower j.source) ∈
            listed.map (fun j => (lower j.source, lower j.target))) ↔
          listed.any (sameTables j) = true := by
        simp only [List.mem_map, List.any_eq_true, sameTables, sameName, Bool.or_eq_true,
          Bool.and_eq_true, beq_iff_eq, Prod.mk.injEq]
        grind
      rw [firstPairs_cons, List.eraseDupsBy.loop]
      simp only [Bool.or_eq_true, decide_eq_true_eq]
      by_cases known : listed.any (sameTables j) = true
      · rw [if_pos (seen.mpr known), known]
        exact ih listed
      · rw [if_neg (mt seen.mp known), Bool.eq_false_iff.mpr known, ← ih (j :: listed)]
        simp
  exact walk pairs []

/-! ## Tables and aliases -/

/-- The full name of a table that is brought in. -/
def Entrant.full (t : Entrant) : String := fullName t.schema t.table

/-- The aliases when one more table is brought in. -/
def Entrant.enter (aliases : List (String × String)) (t : Entrant) : List (String × String) :=
  Assoc.put (lower t.table) t.full (Assoc.put (lower t.aliasName) t.full aliases)

/-- Tables brought in are listed under their full names, and nothing is defined. -/
theorem foldl_add (entrants : List Entrant) :
    (entrants.map Entrant.event).foldl Findings.add {} =
      ⟨(entrants.map Entrant.full).reverse, entrants.foldl Entrant.enter [], []⟩ := by
  have walk : ∀ (rest : List Entrant) (tables : List String) (aliases : List (String × String)),
      (rest.map Entrant.event).foldl Findings.add ⟨tables, aliases, []⟩ =
        ⟨(rest.map Entrant.full).reverse ++ tables, rest.foldl Entrant.enter aliases, []⟩ := by
    intro rest
    induction rest with
    | nil => exact fun _ _ => rfl
    | cons t rest ih =>
      intro tables aliases
      have step : Findings.add ⟨tables, aliases, []⟩ t.event =
          ⟨t.full :: tables, t.enter aliases, []⟩ := rfl
      rw [List.map_cons, List.foldl_cons, step, ih, List.map_cons, List.reverse_cons,
        List.append_assoc]
      rfl
  have whole := walk entrants [] []
  rwa [List.append_nil] at whole

/-- Whether a table is entered under a name in small letters. -/
def Entrant.goesBy (key : String) (t : Entrant) : Bool :=
  lower t.aliasName == key || lower t.table == key

/-- A name leads to the last table that was entered under it. -/
theorem get?_foldl_enter_eq {key : String} {entrants : List Entrant}
    {aliases : List (String × String)} :
    Assoc.get? key (entrants.foldl Entrant.enter aliases) =
      ((entrants.reverse.find? (Entrant.goesBy key)).map Entrant.full).or
        (Assoc.get? key aliases) := by
  induction entrants generalizing aliases with
  | nil => rfl
  | cons t rest ih =>
    rw [List.foldl_cons, ih, List.reverse_cons, List.find?_append, Option.map_or, Option.or_assoc,
      Entrant.enter, Assoc.get?_put, Assoc.get?_put, List.find?_singleton]
    -- What later tables are entered under counts first; this leaves the table itself.
    congr 1
    by_cases named : lower t.table = key
    · simp [Entrant.goesBy, named]
    · by_cases aliased : lower t.aliasName = key
      · simp [Entrant.goesBy, named, aliased]
      · simp [Entrant.goesBy, named, aliased]

/-- An alias stands for its table as long as no other table goes by it. -/
theorem get?_foldl_enter {key full : String} {entrants : List Entrant}
    {aliases : List (String × String)}
    (unique : ∀ t ∈ entrants, lower t.aliasName = key ∨ lower t.table = key → t.full = full)
    (there : Assoc.get? key aliases = some full ∨ ∃ t ∈ entrants, lower t.aliasName = key) :
    Assoc.get? key (entrants.foldl Entrant.enter aliases) = some full := by
  rw [get?_foldl_enter_eq]
  cases found : entrants.reverse.find? (Entrant.goesBy key) with
  | some t =>
    have goes : lower t.aliasName = key ∨ lower t.table = key := by
      simpa [Entrant.goesBy] using List.find?_some found
    have ht : t ∈ entrants := List.mem_reverse.mp (List.mem_of_find?_eq_some found)
    rw [Option.map_some, Option.some_or, unique t ht goes]
  | none =>
    rw [Option.map_none, Option.none_or]
    rcases there with known | ⟨t, ht, aliased⟩
    · exact known
    · have absent := List.find?_eq_none.mp found t (List.mem_reverse.mpr ht)
      simp [Entrant.goesBy, aliased] at absent

/-- A name that no table goes by stands for what it stood for before. -/
theorem get?_foldl_enter_of_ne {key : String} {entrants : List Entrant}
    {aliases : List (String × String)}
    (other : ∀ t ∈ entrants, lower t.aliasName ≠ key ∧ lower t.table ≠ key) :
    Assoc.get? key (entrants.foldl Entrant.enter aliases) = Assoc.get? key aliases := by
  have absent : entrants.reverse.find? (Entrant.goesBy key) = none := by
    refine List.find?_eq_none.mpr fun t ht => ?_
    obtain ⟨unaliased, unnamed⟩ := other t (List.mem_reverse.mp ht)
    simp [Entrant.goesBy, unaliased, unnamed]
  rw [get?_foldl_enter_eq, absent, Option.map_none, Option.none_or]

/-! ## Equalities -/

/-- The tables that an equality relates, if it relates two different tables. -/
def Findings.relate (f : Findings) (e : Equation) : Option JoinedPair :=
  if lower e.leftTable ∈ f.defined || lower e.rightTable ∈ f.defined then none
  else
    let source := f.resolve e.leftSchema e.leftTable
    let target := f.resolve e.rightSchema e.rightTable
    if lower source ∈ f.defined || lower target ∈ f.defined || lower source = lower target then none
    else
      some ⟨source, target,
        some (source ++ "." ++ e.leftColumn ++ " = " ++ target ++ "." ++ e.rightColumn),
        some e.leftColumn, some e.rightColumn⟩

theorem Findings.relate?_eq (f : Findings) : f.relate? = fun m => f.relate (Equation.ofMatch m) := rfl

/-- The joins of a text are those that its equalities relate. -/
theorem SelectText.joinsOf_chars {t : SelectText} (h : t.WellFormed) {limit : Int}
    (enough : (t.joins.length : Int) ≤ limit) (f : Findings) :
    joinsOf limit f t.chars =
      (((t.joins.flatMap JoinText.equations).filterMap f.relate).eraseDupsBy sameTables, []) := by
  have bodies := map_body_findAll_onCondition h
  have le : ((onCondition.findAll t.chars).length : Int) ≤ limit := by
    rw [← List.length_map (f := (·.part .body)), bodies, List.length_map]
    exact enough
  have flat : (onCondition.findAll t.chars).flatMap (fun m => equality.findAll (m.part .body)) =
      t.joins.flatMap fun j => equality.findAll j.condition := by
    have mapped := congrArg (List.flatMap equality.findAll) bodies
    rwa [List.flatMap_map, List.flatMap_map] at mapped
  have equations : (t.joins.flatMap fun j => equality.findAll j.condition).map Equation.ofMatch =
      t.joins.flatMap JoinText.equations := by
    rw [List.map_flatMap]
    refine List.flatMap_congr fun j hj => ?_
    exact map_ofMatch_findAll (h.joins j hj).first (h.joins j hj).more
  rw [joinsOf, bounded_of_le le]
  show (firstPairs [] (List.filterMap f.relate? _), []) = _
  rw [flat, firstPairs_eq, ← equations, List.filterMap_map, Findings.relate?_eq]
  rfl

/-! ## Reports -/

namespace SelectText

/-- The tables that are brought in, in the order of the text. -/
def entrants (t : SelectText) : List Entrant := t.source :: t.joins.map (·.target)

/-- What the tables that are brought in add up to. -/
def findings (t : SelectText) : Findings :=
  ⟨(t.entrants.map Entrant.full).reverse, t.entrants.foldl Entrant.enter [], []⟩

/-- The report on a text: its tables, and the pairs of tables that its equalities relate. -/
theorem reportOf_chars {t : SelectText} (h : t.WellFormed) {limits : Limits}
    (some : 1 ≤ limits.maxMatches) (enough : (t.joins.length : Int) ≤ limits.maxMatches) :
    reportOf limits t.chars =
      (⟨(t.entrants.map Entrant.full).eraseDupsBy sameName,
        ((t.joins.flatMap JoinText.equations).filterMap t.findings.relate).eraseDupsBy sameTables,
        t.findings.aliases⟩, t.entrants.map Entrant.event) := by
  have events : scanStatement limits.maxMatches limits.maxDepth t.chars =
      t.entrants.map Entrant.event := by
    rw [scanStatement_chars h some enough, entrants, List.map_cons, List.map_map]
    rfl
  have found : (t.entrants.map Entrant.event).foldl Findings.add {} = t.findings :=
    foldl_add t.entrants
  have tables : t.findings.uniqueTables = (t.entrants.map Entrant.full).eraseDupsBy sameName := by
    rw [Findings.uniqueTables, ← firstMentions_eq]
    show firstMentions [] (List.reverse (List.reverse _)) = _
    rw [List.reverse_reverse]
  rw [reportOf, events, found, joinsOf_chars h enough, tables]
  exact Prod.ext rfl (List.append_nil _)

/-- Tables alone give no reason to warn. -/
theorem warningsOf_events (limits : Limits) (entrants : List Entrant) :
    warningsOf limits (entrants.map Entrant.event) = [] := by
  have mentions : ∀ e ∈ entrants.map Entrant.event, e ≠ .tooDeep ∧ e ≠ .cutShort := by
    intro e he
    obtain ⟨t, -, rfl⟩ := List.mem_map.mp he
    exact ⟨nofun, nofun⟩
  have deep : (entrants.map Entrant.event).filter (· = .tooDeep) = [] :=
    List.filter_eq_nil_iff.mpr fun e he => by simpa using (mentions e he).1
  have cut : .cutShort ∉ entrants.map Entrant.event := fun he => (mentions _ he).2 rfl
  rw [warningsOf, deep, if_neg cut]
  rfl

end SelectText

end QueryWorkbench.Analysis
