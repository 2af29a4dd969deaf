/-
QueryWorkbench.Proofs.Analysis.Reported — what a report lists of what an analysis finds.

A report lists each table that is found once, unless a query defines its name
(`mem_uniqueTables`, `exists_of_mem_tables`), and relates each two tables once (`mem_firstPairs`,
`exists_of_mem_pairs`); all names are compared in small letters. What is found are the tables that
the events mention and the names that they define (`foldl_add_mentioned`, `foldl_add_defined`).
-/
import QueryWorkbench.Proofs.Analysis.Findings

namespace QueryWorkbench.Analysis

open Pattern Text

/-! ## Tables, once each -/

section

variable {seen tables : List String} {t : String}

theorem mem_firstMentions (h : t ∈ firstMentions seen tables) : t ∈ tables ∧ lower t ∉ seen := by
  induction tables generalizing seen with
  | nil => cases h
  | cons u rest ih =>
    rw [firstMentions] at h
    split at h
    · exact ⟨List.mem_cons_of_mem _ (ih h).1, (ih h).2⟩
    · rename_i fresh
      rcases List.mem_cons.mp h with rfl | h
      · exact ⟨List.mem_cons_self .., fresh⟩
      · exact ⟨List.mem_cons_of_mem _ (ih h).1, fun hs => (ih h).2 (List.mem_cons_of_mem _ hs)⟩

theorem nodup_firstMentions (seen tables : List String) :
    ((firstMentions seen tables).map lower).Nodup := by
  induction tables generalizing seen with
  | nil => exact .nil
  | cons u rest ih =>
    rw [firstMentions]
    split
    · exact ih seen
    · rw [List.map_cons, List.nodup_cons]
      refine ⟨fun h => ?_, ih _⟩
      obtain ⟨t, ht, same⟩ := List.mem_map.mp h
      exact (mem_firstMentions ht).2 (same ▸ List.mem_cons_self ..)

theorem exists_of_mem_firstMentions (h : t ∈ tables) (fresh : lower t ∉ seen) :
    ∃ u ∈ firstMentions seen tables, lower u = lower t := by
  induction tables generalizing seen with
  | nil => cases h
  | cons u rest ih =>
    rw [firstMentions]
    split
    · rename_i known
      rcases List.mem_cons.mp h with rfl | h
      · exact absurd known fresh
      · exact ih h fresh
    · by_cases same : lower u = lower t
      · exact ⟨u, List.mem_cons_self .., same⟩
      · rcases List.mem_cons.mp h with rfl | h
        · exact absurd rfl same
        · have fresh' : lower t ∉ lower u :: seen := by simpa [fresh] using Ne.symm same
          obtain ⟨v, hv, again⟩ := ih h fresh'
          exact ⟨v, List.mem_cons_of_mem _ hv, again⟩

end

theorem mem_uniqueTables {f : Findings} {t : String} (h : t ∈ f.uniqueTables) :
    t ∈ f.tables ∧ lower t ∉ f.defined := by
  obtain ⟨listed, fresh⟩ := mem_firstMentions h
  exact ⟨List.mem_reverse.mp listed, fresh⟩

/-- A table that is found is listed, unless a query defines its name. -/
theorem exists_of_mem_tables {f : Findings} {t : String} (h : t ∈ f.tables)
    (undefined : lower t ∉ f.defined) : ∃ u ∈ f.uniqueTables, sameName t u = true := by
  obtain ⟨u, hu, same⟩ := exists_of_mem_firstMentions (List.mem_reverse.mpr h) undefined
  exact ⟨u, hu, beq_iff_eq.mpr same.symm⟩

/-! ## Pairs, once each -/

theorem sameTables_iff {j k : JoinedPair} : sameTables j k = true ↔
    (lower j.source = lower k.source ∧ lower j.target = lower k.target) ∨
      (lower j.source = lower k.target ∧ lower j.target = lower k.source) := by
  simp [sameTables, sameName]

section

variable {seen : List (String × String)} {pairs : List JoinedPair} {j : JoinedPair}

theorem mem_firstPairs (h : j ∈ firstPairs seen pairs) : j ∈ pairs ∧
    (lower j.source, lower j.target) ∉ seen ∧ (lower j.target, lower j.source) ∉ seen := by
  induction pairs generalizing seen with
  | nil => cases h
  | cons k rest ih =>
    rw [firstPairs_cons] at h
    split at h
    · exact ⟨List.mem_cons_of_mem _ (ih h).1, (ih h).2⟩
    · rename_i fresh
      simp only [Bool.or_eq_true, decide_eq_true_eq, not_or] at fresh
      rcases List.mem_cons.mp h with rfl | h
      · exact ⟨List.mem_cons_self .., fresh⟩
      · obtain ⟨listed, forth, back⟩ := ih h
        exact ⟨List.mem_cons_of_mem _ listed, fun hs => forth (List.mem_cons_of_mem _ hs),
          fun hs => back (List.mem_cons_of_mem _ hs)⟩

theorem pairwise_firstPairs (seen : List (String × String)) (pairs : List JoinedPair) :
    (firstPairs seen pairs).Pairwise fun j k => sameTables j k = false := by
  induction pairs generalizing seen with
  | nil => exact .nil
  | cons k rest ih =>
    rw [firstPairs_cons]
    split
    · exact ih seen
    · refine .cons (fun j hj => ?_) (ih _)
      obtain ⟨-, forth, back⟩ := mem_firstPairs hj
      rw [List.mem_cons, not_or] at forth back
      refine Bool.eq_false_iff.mpr fun same => ?_
      rcases sameTables_iff.mp same with ⟨source, target⟩ | ⟨source, target⟩
      · exact forth.1 (by rw [source, target])
      · exact back.1 (by rw [source, target])

/-- Every two tables that are related are related by one of the pairs listed. -/
theorem exists_of_mem_pairs (h : j ∈ pairs) : ∃ k ∈ firstPairs [] pairs, sameTables j k = true := by
  have walk : ∀ {pairs : List JoinedPair} {seen : List (String × String)}, j ∈ pairs →
      (lower j.source, lower j.target) ∉ seen → (lower j.target, lower j.source) ∉ seen →
      ∃ k ∈ firstPairs seen pairs, sameTables j k = true := by
    intro pairs
    induction pairs with
    | nil => exact fun h => nomatch h
    | cons k rest ih =>
      intro seen h forth back
      rw [firstPairs_cons]
      split
      · rename_i known
        simp only [Bool.or_eq_true, decide_eq_true_eq] at known
        rcases List.mem_cons.mp h with rfl | h
        · exact absurd known (not_or.mpr ⟨forth, back⟩)
        · exact ih h forth back
      · by_cases same : sameTables j k = true
        · exact ⟨k, List.mem_cons_self .., same⟩
        · rcases List.mem_cons.mp h with rfl | h
          · exact absurd (sameTables_iff.mpr (.inl ⟨rfl, rfl⟩)) same
          · have other := mt sameTables_iff.mpr same
            rw [not_or] at other
            have forth' : (lower j.source, lower j.target) ∉
                (lower k.source, lower k.target) :: seen := by
              simp only [List.mem_cons, Prod.mk.injEq, not_or]
              exact ⟨other.1, forth⟩
            have back' : (lower j.target, lower j.source) ∉
                (lower k.source, lower k.target) :: seen := by
              simp only [List.mem_cons, Prod.mk.injEq, not_or]
              exact ⟨fun h => other.2 h.symm, back⟩
            obtain ⟨l, hl, again⟩ := ih h forth' back'
            exact ⟨l, List.mem_cons_of_mem _ hl, again⟩
  exact walk h (by simp) (by simp)

end

/-! ## Equalities that relate tables -/

section

variable {f : Findings} {e : Equation}

/-- Related are two different tables whose names no query defines. -/
theorem of_relate {j : JoinedPair} (h : f.relate e = some j) :
    j.source = f.resolve e.leftSchema e.leftTable ∧ j.target = f.resolve e.rightSchema e.rightTable ∧
      (∀ name ∈ [e.leftTable, e.rightTable, j.source, j.target], lower name ∉ f.defined) ∧
      lower j.source ≠ lower j.target := by
  rw [Findings.relate] at h
  split at h
  · cases h
  · rename_i written
    simp only at h
    split at h
    · cases h
    · rename_i meant
      obtain rfl := Option.some.inj h
      simp only [Bool.or_eq_true, decide_eq_true_eq, not_or] at written meant
      refine ⟨rfl, rfl, ?_, meant.2⟩
      simp only [List.forall_mem_cons]
      exact ⟨written.1, written.2, meant.1.1, meant.1.2, nofun⟩

theorem exists_relate
    (undefined : ∀ name ∈ [e.leftTable, e.rightTable, f.resolve e.leftSchema e.leftTable,
      f.resolve e.rightSchema e.rightTable], lower name ∉ f.defined)
    (different : lower (f.resolve e.leftSchema e.leftTable) ≠
      lower (f.resolve e.rightSchema e.rightTable)) : ∃ j, f.relate e = some j := by
  simp only [List.forall_mem_cons] at undefined
  obtain ⟨left, right, source, target, -⟩ := undefined
  rw [Findings.relate, if_neg (by simp [left, right])]
  simp only
  rw [if_neg (by simp [source, target, different])]
  exact ⟨_, rfl⟩

end

/-! ## What is found -/

section

variable {f : Findings} {e : Event}

/-- An event takes no table away, and adds one only by mentioning it under no defined name. -/
theorem mem_add_tables {t : String} : t ∈ (f.add e).tables ↔ t ∈ f.tables ∨
    ∃ schema table aliasName, e = .mentioned schema table aliasName ∧ lower table ∉ f.defined ∧
      t = fullName schema table := by
  cases e with
  | mentioned schema table aliasName =>
    rw [Findings.add]
    by_cases known : lower table ∈ f.defined
    · simp [known]
    · simp [known, or_comm]
  | defined name => simp [Findings.add]
  | tooDeep => simp [Findings.add]
  | cutShort => simp [Findings.add]

/-- An event takes no defined name away. -/
theorem mem_add_defined {name : String} (h : name ∈ f.defined) : name ∈ (f.add e).defined := by
  cases e with
  | defined other => exact List.mem_cons_of_mem _ h
  | mentioned schema table aliasName =>
    rw [Findings.add]
    split
    · exact List.mem_append_right _ h
    · exact h
  | tooDeep => exact h
  | cutShort => exact h

/-- Names stay defined. -/
theorem mem_defined_of_mem {name : String} (h : name ∈ f.defined) (events : List Event) :
    name ∈ (events.foldl Findings.add f).defined :=
  List.foldlRecOn (motive := fun g => name ∈ g.defined) events Findings.add h
    fun _ known _ _ => mem_add_defined known

/-- Tables that are found stay. -/
theorem mem_tables_of_mem {t : String} (h : t ∈ f.tables) (events : List Event) :
    t ∈ (events.foldl Findings.add f).tables :=
  List.foldlRecOn (motive := fun g => t ∈ g.tables) events Findings.add h
    fun _ found _ _ => mem_add_tables.mpr (.inl found)

end

/-- A name that an event defines is defined. -/
theorem foldl_add_defined {events : List Event} {name : String} (h : .defined name ∈ events)
    (f : Findings) : name ∈ (events.foldl Findings.add f).defined := by
  obtain ⟨before, behind, rfl⟩ := List.append_of_mem h
  rw [List.foldl_append, List.foldl_cons]
  exact mem_defined_of_mem (List.mem_cons_self ..) behind

/-- A table that an event mentions is found, unless a query defines its name. -/
theorem foldl_add_mentioned {events : List Event} {schema aliasName : Option String}
    {table : String} (h : .mentioned schema table aliasName ∈ events) (f : Findings) :
    fullName schema table ∈ (events.foldl Findings.add f).tables ∨
      lower table ∈ (events.foldl Findings.add f).defined := by
  obtain ⟨before, behind, rfl⟩ := List.append_of_mem h
  rw [List.foldl_append, List.foldl_cons]
  generalize before.foldl Findings.add f = g
  by_cases known : lower table ∈ g.defined
  · exact .inr (mem_defined_of_mem (mem_add_defined known) behind)
  · have found := mem_add_tables.mpr (.inr ⟨schema, table, aliasName, rfl, known, rfl⟩)
    exact .inl (mem_tables_of_mem found behind)

/-- A table that is found is mentioned by an event. -/
theorem exists_mentioned {events : List Event} {t : String}
    (h : t ∈ (events.foldl Findings.add {}).tables) : ∃ schema table aliasName,
      .mentioned schema table aliasName ∈ events ∧ t = fullName schema table := by
  refine List.foldlRecOn (motive := fun f => t ∈ f.tables → ∃ schema table aliasName,
    .mentioned schema table aliasName ∈ events ∧ t = fullName schema table)
    events Findings.add (fun none => absurd none List.not_mem_nil) (fun f ih e he h => ?_) h
  rcases mem_add_tables.mp h with h | ⟨schema, table, aliasName, rfl, -, same⟩
  · exact ih h
  · exact ⟨schema, table, aliasName, he, same⟩

/-! ## Reports -/

/-- What an analysis comes across. -/
def eventsOf (limits : Limits) (sql : String) : List Event :=
  scanStatement limits.maxMatches limits.maxDepth (scrubChars sql.toList)

/-- What an analysis finds. -/
def findingsOf (limits : Limits) (sql : String) : Findings :=
  (eventsOf limits sql).foldl Findings.add {}

/-- The equalities in the first join conditions of a text. -/
def equalitiesOf (limit : Int) (text : List Char) : List (Match Part) :=
  ((onCondition.findAll text).take limit.toNat).flatMap fun m => equality.findAll (m.part .body)

theorem analyze_of_le {limits : Limits} {sql : String} (short : sql.length ≤ limits.maxLength) :
    (analyze limits sql).1.tables = (findingsOf limits sql).uniqueTables ∧
      (analyze limits sql).1.joins = firstPairs []
        ((equalitiesOf limits.maxMatches (scrubChars sql.toList)).filterMap
          (findingsOf limits sql).relate?) := by
  rw [analyze, if_neg (Int.not_lt.mpr short)]
  exact ⟨rfl, rfl⟩

/-- A text that is too long for an analysis has nothing in its report. -/
theorem analyze_of_lt {limits : Limits} {sql : String} (long : limits.maxLength < sql.length) :
    (analyze limits sql).1 = {} := by
  rw [analyze, if_pos long]

end QueryWorkbench.Analysis
