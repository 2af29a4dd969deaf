/-
QueryWorkbench.Proofs.Analysis.Truncation — what an analysis under smaller limits reports.

Limits take away what an analysis comes across, and with it the names that it would have left out
and the aliases that it would have resolved. So a report under smaller limits may list a table that
turns out to be a derived name, or relate a name that turns out to be an alias; apart from that the
report under larger limits has it too (`report_of_atMost`). That each of these does happen is
`not_has_under_larger_limits`.

## How the proof goes

The two limits act in different ways and are taken one after the other. More levels only add events
to a scan. More matches may let a pass go further, which adds openings too, and an opening may cover
a query that stood alone before. If no query is left out for its depth, what was found in it is
found in the one that covers it; if no pass is cut short, the smaller pass is one over the same
openings. `mem_scan_of_oneCeiling` has the two cases, `mem_scanStatement_of_oneCeiling` goes on to
the list of named queries, and the report is then compared name by name.

## The side condition

`OneCeiling` is asked of the scan under the larger limits, and only where these have more matches:
if it hits both limits, a pass that goes further can cover a query by one that is left out, and what
is mentioned there is lost (`coveredQuery`). Joins need no condition, since the pass over conditions
does not go by queries.
-/
import QueryWorkbench.Proofs.Analysis.Ceilings
import QueryWorkbench.Proofs.Analysis.Mentions
import QueryWorkbench.Proofs.Analysis.Reported

namespace QueryWorkbench.Analysis

open Pattern Text

/-! ## Whole statements -/

/-- Events without a query left out, or without a pass cut short. -/
def OneCeiling (events : List Event) : Prop := .tooDeep ∉ events ∨ .cutShort ∉ events

theorem OneCeiling.mono {events more : List Event} (h : OneCeiling more)
    (sub : ∀ e ∈ events, e ∈ more) : OneCeiling events :=
  h.imp (mt (sub _)) (mt (sub _))

section

variable {limit limit' : Int} {text : List Char} {e : Event}

/-- A scan mentions all tables that it mentions under smaller limits, if it uses no more matches or
does not hit both limits. -/
theorem mem_scan_of_oneCeiling (le : limit ≤ limit') (mentioned : e.IsMention) {levels levels' : Nat}
    (deep : levels ≤ levels') (one : limit < limit' → OneCeiling (scan limit' levels' text))
    (he : e ∈ scan limit levels text) : e ∈ scan limit' levels' text := by
  rcases Int.lt_or_eq_of_le le with more | rfl
  · exact (one more).elim (fun shallow => (mem_scan_of_shallow le mentioned shallow).2 levels he)
      fun uncut => mem_scan_of_uncut uncut mentioned he
  · exact mem_scan_of_deeper mentioned deep he

/-- The list of named queries ends at the same place under all limits, and mentions more tables
under larger ones. -/
theorem scanNamed_of_oneCeiling (le : limit ≤ limit') (mentioned : e.IsMention)
    {levels levels' fuel : Nat} (deep : levels ≤ levels') {here : Place}
    (one : limit < limit' → OneCeiling (scanNamed limit' levels' fuel here).1) :
    (scanNamed limit levels fuel here).2 = (scanNamed limit' levels' fuel here).2 ∧
      (e ∈ (scanNamed limit levels fuel here).1 → e ∈ (scanNamed limit' levels' fuel here).1) := by
  induction fuel generalizing here with
  | zero => exact ⟨rfl, id⟩
  | succ fuel ih =>
    simp only [scanNamed] at one ⊢
    cases head : cteHead.matchAt? here with
    | none => exact ⟨rfl, id⟩
    | some m =>
      rw [head] at one
      cases closed : closing? 1 0 m.stop.rest with
      | none =>
        simp only [closed, List.mem_cons] at one ⊢
        exact ⟨trivial, Or.imp_right (mem_scan_of_oneCeiling le mentioned deep
          fun more => (one more).mono fun _ => List.mem_cons_of_mem _)⟩
      | some n =>
        cases separated : cteSeparator.matchAt? (m.stop.skip (n + 1)) with
        | none =>
          simp only [closed, separated, List.mem_cons] at one ⊢
          exact ⟨trivial, Or.imp_right (mem_scan_of_oneCeiling le mentioned deep
            fun more => (one more).mono fun _ => List.mem_cons_of_mem _)⟩
        | some s =>
          simp only [closed, separated, List.cons_append, List.mem_cons, List.mem_append] at one ⊢
          obtain ⟨same, others⟩ := ih fun more => (one more).mono fun _ he =>
            List.mem_cons_of_mem _ (List.mem_append_right _ he)
          refine ⟨same, Or.imp_right (Or.imp (mem_scan_of_oneCeiling le mentioned deep ?_) others)⟩
          exact fun more => (one more).mono fun _ he =>
            List.mem_cons_of_mem _ (List.mem_append_left _ he)

/-- A statement mentions all tables that it mentions under smaller limits, if it uses no more matches
or not both limits that keep it from doing so are hit. -/
theorem mem_scanStatement_of_oneCeiling (le : limit ≤ limit') (mentioned : e.IsMention)
    {maxDepth maxDepth' : Int} (deep : maxDepth ≤ maxDepth')
    (one : limit < limit' → OneCeiling (scanStatement limit' maxDepth' text))
    (he : e ∈ scanStatement limit maxDepth text) : e ∈ scanStatement limit' maxDepth' text := by
  simp only [scanStatement] at one he ⊢
  cases listed : withHead.matchAt? (Place.start text) with
  | none =>
    simp only [listed] at one he ⊢
    exact mem_scan_of_oneCeiling le mentioned (Int.toNat_le_toNat deep) one he
  | some head =>
    simp only [listed, List.mem_append] at one he ⊢
    obtain ⟨same, others⟩ := scanNamed_of_oneCeiling le mentioned
      (Int.toNat_le_toNat (Int.sub_le_sub_right deep 1))
      fun more => (one more).mono fun _ he => List.mem_append_left _ he
    refine he.imp others fun he => ?_
    rw [same] at he
    exact mem_scan_of_oneCeiling le mentioned (Int.toNat_le_toNat deep)
      (fun more => (one more).mono fun _ he => List.mem_append_right _ he) he

end

/-! ## Reports -/

/-- An equality of two columns in a join condition of a text. -/
def Compares (sql : String) (e : Equation) : Prop :=
  ∃ c ∈ onCondition.findAll (scrubChars sql.toList), ∃ m ∈ equality.findAll (c.part .body),
    e = Equation.ofMatch m

section

variable {L M : Limits} {sql : String}

/-- A table under smaller limits is one under larger limits, or bears a name that turns out to be
defined by a query. -/
theorem table_of_atMost (le : L.AtMost M)
    (one : L.maxMatches < M.maxMatches → OneCeiling (eventsOf M sql)) {t : String}
    (ht : t ∈ (analyze L sql).1.tables) : (∃ u ∈ (analyze M sql).1.tables, sameName t u = true) ∨
      ∃ schema name, t = fullName schema name ∧ lower name ∈ (findingsOf M sql).defined := by
  by_cases short : sql.length ≤ L.maxLength
  · rw [(analyze_of_le short).1] at ht
    rw [(analyze_of_le (Int.le_trans short le.length)).1]
    obtain ⟨schema, table, aliasName, he, rfl⟩ := exists_mentioned (mem_uniqueTables ht).1
    have mentioned : (Event.mentioned schema table aliasName).IsMention := trivial
    replace he : .mentioned schema table aliasName ∈ eventsOf M sql :=
      mem_scanStatement_of_oneCeiling le.passes mentioned le.depth one he
    rcases foldl_add_mentioned he {} with found | defined
    · by_cases whole : lower (fullName schema table) ∈ (findingsOf M sql).defined
      · exact .inr ⟨none, fullName schema table, rfl, whole⟩
      · exact .inl (exists_of_mem_tables found whole)
    · exact .inr ⟨schema, table, rfl, defined⟩
  · rw [analyze_of_lt (Int.not_le.mp short)] at ht
    cases ht

/-- A join under smaller limits is one under larger limits, or relates a name that turns out to be
defined by a query or to stand for another table. -/
theorem join_of_atMost (le : L.AtMost M) {j : JoinedPair} (hj : j ∈ (analyze L sql).1.joins) :
    ∃ e, Compares sql e ∧ (findingsOf L sql).relate e = some j ∧
      ((∃ k ∈ (analyze M sql).1.joins, sameTables j k = true) ∨
        (∃ name ∈ [e.leftTable, e.rightTable, j.source, j.target],
          lower name ∈ (findingsOf M sql).defined) ∨
        sameName j.source ((findingsOf M sql).resolve e.leftSchema e.leftTable) = false ∨
        sameName j.target ((findingsOf M sql).resolve e.rightSchema e.rightTable) = false) := by
  by_cases short : sql.length ≤ L.maxLength
  · rw [(analyze_of_le short).2] at hj
    rw [(analyze_of_le (Int.le_trans short le.length)).2]
    obtain ⟨m, hm, related⟩ := List.mem_filterMap.mp (mem_firstPairs hj).1
    obtain ⟨c, hc, hm'⟩ := List.mem_flatMap.mp hm
    rw [Findings.relate?_eq] at related
    refine ⟨Equation.ofMatch m, ⟨c, List.mem_of_mem_take hc, m, hm', rfl⟩, related, ?_⟩
    have known : m ∈ equalitiesOf M.maxMatches (scrubChars sql.toList) :=
      List.mem_flatMap.mpr ⟨c, List.take_subset_take_left _ (Int.toNat_le_toNat le.passes) hc, hm'⟩
    refine Decidable.or_iff_not_imp_right.mpr fun other => ?_
    simp only [not_or, Bool.not_eq_false, not_exists, not_and] at other
    obtain ⟨undefined, source, target⟩ := other
    simp only [sameName, beq_iff_eq] at source target
    obtain ⟨-, -, -, different⟩ := of_relate related
    obtain ⟨k, related'⟩ : ∃ k, (findingsOf M sql).relate (Equation.ofMatch m) = some k := by
      refine exists_relate (fun name hname => ?_) (by rwa [← source, ← target])
      simp only [List.mem_cons, List.not_mem_nil, or_false] at hname undefined
      rcases hname with rfl | rfl | rfl | rfl
      · exact undefined _ (.inl rfl)
      · exact undefined _ (.inr (.inl rfl))
      · exact source ▸ undefined _ (.inr (.inr (.inl rfl)))
      · exact target ▸ undefined _ (.inr (.inr (.inr rfl)))
    have listed : k ∈ (equalitiesOf M.maxMatches (scrubChars sql.toList)).filterMap
        (findingsOf M sql).relate? := by
      rw [Findings.relate?_eq]
      exact List.mem_filterMap.mpr ⟨m, known, related'⟩
    obtain ⟨k', hk', same⟩ := exists_of_mem_pairs listed
    obtain ⟨source', target', -⟩ := of_relate related'
    refine ⟨k', hk', ?_⟩
    rwa [sameTables_iff, source, target, ← source', ← target', ← sameTables_iff]
  · rw [analyze_of_lt (Int.not_le.mp short)] at hj
    cases hj

end

/-- Every table and every join under smaller limits is one under larger limits, but for the names
that turn out to be defined by a query or to stand for another table, and for what is lost when
the larger limits allow more matches and nevertheless both cut a pass short and leave a query
out. -/
theorem report_of_atMost {L M : Limits} (le : L.AtMost M) (sql : String) :
    ((L.maxMatches < M.maxMatches → OneCeiling (eventsOf M sql)) → ∀ t ∈ (analyze L sql).1.tables,
      (∃ u ∈ (analyze M sql).1.tables, sameName t u = true) ∨
        ∃ schema name, t = fullName schema name ∧ lower name ∈ (findingsOf M sql).defined) ∧
    ∀ j ∈ (analyze L sql).1.joins, ∃ e, Compares sql e ∧ (findingsOf L sql).relate e = some j ∧
      ((∃ k ∈ (analyze M sql).1.joins, sameTables j k = true) ∨
        (∃ name ∈ [e.leftTable, e.rightTable, j.source, j.target],
          lower name ∈ (findingsOf M sql).defined) ∨
        sameName j.source ((findingsOf M sql).resolve e.leftSchema e.leftTable) = false ∨
        sameName j.target ((findingsOf M sql).resolve e.rightSchema e.rightTable) = false) :=
  ⟨fun one _ => table_of_atMost le one, fun _ => join_of_atMost le⟩

/-- A join with a table whose name a query two levels down defines. -/
def nestedName : String :=
  "SELECT * FROM a JOIN x ON a.id = x.id WHERE a.id IN (SELECT id FROM (SELECT id FROM y) x)"

/-- The name is a table when the nested queries are left out, and turns out to be none. -/
theorem report_of_atMost_nestedName :
    let L : Limits := ⟨200000, 5000, 0⟩
    let M : Limits := ⟨200000, 6000, 5⟩
    let j : JoinedPair := ⟨"a", "x", some "a.id = x.id", some "id", some "id"⟩
    (L.AtMost M ∧ OneCeiling (eventsOf M nestedName) ∧ "x" ∈ (analyze L nestedName).1.tables ∧
      j ∈ (analyze L nestedName).1.joins) ∧
    ((∃ u ∈ (analyze M nestedName).1.tables, sameName "x" u = true) ∨
      ∃ schema name, "x" = fullName schema name ∧
        lower name ∈ (findingsOf M nestedName).defined) ∧
    ∃ e, Compares nestedName e ∧ (findingsOf L nestedName).relate e = some j ∧
      ((∃ k ∈ (analyze M nestedName).1.joins, sameTables j k = true) ∨
        (∃ name ∈ [e.leftTable, e.rightTable, j.source, j.target],
          lower name ∈ (findingsOf M nestedName).defined) ∨
        sameName j.source ((findingsOf M nestedName).resolve e.leftSchema e.leftTable) = false ∨
        sameName j.target ((findingsOf M nestedName).resolve e.rightSchema e.rightTable) =
          false) := by
  intro L M j
  have le : L.AtMost M := ⟨by decide, by decide, by decide⟩
  have one : OneCeiling (eventsOf M nestedName) := by
    left
    simp only [M, eventsOf, scanStatement, Int.reduceToNat, scan, nestedQueries,
      firstAtEach_mergeSort, surface, callPositions_eq]
    decide +kernel
  have reported : "x" ∈ (analyze L nestedName).1.tables ∧ j ∈ (analyze L nestedName).1.joins := by
    simp only [L, j, analyze, reportOf, scanStatement, Int.reduceToNat, scan, nestedQueries,
      firstAtEach_mergeSort, surface, callPositions_eq]
    decide +kernel
  obtain ⟨table, join⟩ := reported
  exact ⟨⟨le, one, table, join⟩, (report_of_atMost le nestedName).1 (fun _ => one) "x" table,
    (report_of_atMost le nestedName).2 j join⟩

/-! ## What is lost -/

/-- A report lists all tables of another. -/
def Report.HasTables (S R : Report) : Prop := ∀ t ∈ R.tables, ∃ u ∈ S.tables, sameName t u = true

/-- A report has all joins of another. -/
def Report.HasJoins (S R : Report) : Prop := ∀ j ∈ R.joins, ∃ k ∈ S.joins, sameTables j k = true

instance (S R : Report) : Decidable (Report.HasTables S R) :=
  inferInstanceAs (Decidable (∀ t ∈ R.tables, ∃ u ∈ S.tables, sameName t u = true))

instance (S R : Report) : Decidable (Report.HasJoins S R) :=
  inferInstanceAs (Decidable (∀ j ∈ R.joins, ∃ k ∈ S.joins, sameTables j k = true))

/-- A condition with an alias that a later join brings in. -/
def lateAlias : String := "SELECT * FROM orders o JOIN a ON o.id = c.id JOIN customers c"

/-- A query in a second query, which only a second match finds. -/
def coveredQuery : String :=
  "SELECT (SELECT 1), (SELECT 2 FROM a UNION SELECT 3 FROM b JOIN (SELECT 4 FROM t) x)"

/-- Under larger limits a table and its join are lost to a derived name, a join to an alias, and a
table to a query that is left out. -/
theorem not_has_under_larger_limits :
    ((⟨200000, 5000, 0⟩ : Limits).AtMost ⟨200000, 5000, 5⟩ ∧
      ¬ Report.HasTables (analyze ⟨200000, 5000, 5⟩ nestedName).1
        (analyze ⟨200000, 5000, 0⟩ nestedName).1 ∧
      ¬ Report.HasJoins (analyze ⟨200000, 5000, 5⟩ nestedName).1
        (analyze ⟨200000, 5000, 0⟩ nestedName).1) ∧
    ((⟨200000, 1, 5⟩ : Limits).AtMost ⟨200000, 100, 5⟩ ∧
      ¬ Report.HasJoins (analyze ⟨200000, 100, 5⟩ lateAlias).1
        (analyze ⟨200000, 1, 5⟩ lateAlias).1) ∧
    (⟨200000, 1, 1⟩ : Limits).AtMost ⟨200000, 2, 1⟩ ∧
      ¬ Report.HasTables (analyze ⟨200000, 2, 1⟩ coveredQuery).1
        (analyze ⟨200000, 1, 1⟩ coveredQuery).1 ∧
      lower "t" ∉ (findingsOf ⟨200000, 2, 1⟩ coveredQuery).defined := by
  simp only [analyze, findingsOf, eventsOf, reportOf, scanStatement, Int.reduceToNat, scan,
    nestedQueries, firstAtEach_mergeSort, surface, callPositions_eq]
  refine ⟨⟨⟨by decide, by decide, by decide⟩, ?_⟩,
    ⟨⟨by decide, by decide, by decide⟩, ?_⟩, ⟨by decide, by decide, by decide⟩, ?_⟩ <;>
    decide +kernel

end QueryWorkbench.Analysis
