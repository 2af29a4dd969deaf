/-
QueryWorkbench.Proofs.Highlight.Matcher — the ids that a name could mean, and the one it does.

Three lookups go over the same ids: the related ones, the candidates among them, and the one that is
chosen. `lookups_agree` says that they never contradict each other. An id is chosen exactly if one
is related, the chosen one is a candidate, candidates are related, and where an id has the
normalized name it is chosen, the first of them if there are several.

## How the proof goes

Two names match exactly if their bare parts are the same (`tablesMatch_iff`), since the bare part is
a part of the normalized name. So an id with the same normalized name is related, and all lookups
split in the same two cases: with such an id there is one candidate (`candidates_of_find?`), and
without one the candidates are all related ids (`candidates_of_find?_eq_none`). In both there are
candidates as soon as an id is related (`candidates_eq_nil_iff`). The choice is made among the
candidates (`mem_candidates_of_matchId?`, `matchId?_of_find?`).

## The side condition

Ids and names are arbitrary, and ids may be given twice. Only for an id to be chosen for itself must
no other id have its normalized name, or the first of the two would be chosen for both.
-/
import QueryWorkbench.Highlight.Matcher

namespace QueryWorkbench.Highlight

variable {ids : List String} {name id : String}

/-! ## Related ids -/

theorem bare_eq_of_normalized_eq {a b : String} (same : normalized a = normalized b) :
    bare a = bare b :=
  congrArg Text.afterLastDot same

/-- Names match in full only if they match by their bare parts. -/
theorem tablesMatch_iff {a b : String} : tablesMatch a b = true ↔ bare a = bare b := by
  rw [tablesMatch, Bool.or_eq_true, beq_iff_eq, beq_iff_eq]
  exact or_iff_right_of_imp bare_eq_of_normalized_eq

theorem mem_related : id ∈ related ids name ↔ id ∈ ids ∧ tablesMatch id name = true := by
  rw [related, List.mem_filter, List.mem_eraseDups]

/-! ## Candidates -/

/-- Without its repetitions a list has the same first item of a kind. -/
theorem find?_eraseDups {α : Type} [BEq α] [LawfulBEq α] (p : α → Bool) :
    ∀ items : List α, items.eraseDups.find? p = items.find? p
  | [] => rfl
  | a :: rest => by
    rw [List.eraseDups_cons, List.find?_cons, List.find?_cons, find?_eraseDups p _, List.find?_filter]
    cases here : p a with
    | true => rfl
    | false =>
      have other : (fun b => decide ((!b == a) = true ∧ p b = true)) = p := by
        funext b
        by_cases same : b = a <;> simp [same, here]
      simp only [other]
termination_by items => items.length
decreasing_by exact Nat.lt_succ_of_le (List.length_filter_le ..)

theorem of_find?_normalized
    (found : ids.find? (fun i => normalized i == normalized name) = some id) :
    id ∈ ids ∧ normalized id = normalized name :=
  ⟨List.mem_of_find?_eq_some found, by simpa using List.find?_some found⟩

/-- The first id with the same normalized name is the only candidate. -/
theorem candidates_of_find? (found : ids.find? (fun i => normalized i == normalized name) = some id) :
    candidates ids name = [id] := by
  simp only [candidates, find?_eraseDups, found]

/-- Without such an id the candidates are all that are related. -/
theorem candidates_of_find?_eq_none
    (none : ids.find? (fun i => normalized i == normalized name) = none) :
    candidates ids name = related ids name := by
  simp only [candidates, related, find?_eraseDups, none]
  refine List.filter_congr fun id _ => ?_
  rw [Bool.eq_iff_iff, beq_iff_eq, tablesMatch_iff]

theorem related_of_find? (found : ids.find? (fun i => normalized i == normalized name) = some id) :
    id ∈ related ids name := by
  obtain ⟨mem, same⟩ := of_find?_normalized found
  exact mem_related.mpr ⟨mem, tablesMatch_iff.mpr (bare_eq_of_normalized_eq same)⟩

/-- Every candidate is related. -/
theorem candidates_subset_related : candidates ids name ⊆ related ids name := by
  cases found : ids.find? fun i => normalized i == normalized name with
  | none =>
    rw [candidates_of_find?_eq_none found]
    exact List.Subset.refl _
  | some id =>
    rw [candidates_of_find? found]
    exact List.cons_subset.mpr ⟨related_of_find? found, List.nil_subset _⟩

/-- As soon as an id is related there is a candidate. -/
theorem candidates_eq_nil_iff : candidates ids name = [] ↔ related ids name = [] := by
  cases found : ids.find? fun i => normalized i == normalized name with
  | none => rw [candidates_of_find?_eq_none found]
  | some id =>
    rw [candidates_of_find? found]
    exact iff_of_false (List.cons_ne_nil _ _) (List.ne_nil_of_mem (related_of_find? found))

theorem mem_of_mem_candidates (h : id ∈ candidates ids name) : id ∈ ids :=
  (mem_related.mp (candidates_subset_related h)).1

/-! ## The id that is chosen -/

/-- An id is chosen unless there is no candidate. -/
theorem matchId?_eq_none_iff : matchId? ids name = none ↔ candidates ids name = [] := by
  rw [matchId?]
  split <;> simp_all

/-- The id chosen for a name is one of its candidates. -/
theorem mem_candidates_of_matchId? (h : matchId? ids name = some id) :
    id ∈ candidates ids name := by
  rw [matchId?] at h
  split at h
  · cases h
  · rename_i only one
    obtain rfl := Option.some.inj h
    rw [one]
    exact List.mem_singleton_self _
  · rename_i first rest _ several
    rw [several]
    obtain rfl := Option.some.inj h
    cases found : (first :: rest).find? (prefers name) with
    | none => exact List.mem_cons_self ..
    | some preferred => exact List.mem_of_find?_eq_some found

theorem matchId?_of_find? (found : ids.find? (fun i => normalized i == normalized name) = some id) :
    matchId? ids name = some id := by
  simp only [matchId?, candidates_of_find? found]

/-- The three lookups agree. An id is chosen for a name exactly if one is related to it, and it is one
of the candidates, all of which are related. It is the first id with the same normalized name if there
is one, so ids with different normalized names stand for themselves. -/
theorem lookups_agree (ids : List String) (name : String) :
    (matchId? ids name = none ↔ related ids name = []) ∧
    (related ids name ≠ [] → ∃ id ∈ candidates ids name, matchId? ids name = some id) ∧
    candidates ids name ⊆ related ids name ∧
    (∀ before id after, ids = before ++ id :: after → normalized id = normalized name →
      (∀ other ∈ before, normalized other ≠ normalized name) → matchId? ids name = some id) ∧
    ((∀ a ∈ ids, ∀ b ∈ ids, normalized a = normalized b → a = b) →
      ∀ id ∈ ids, matchId? ids id = some id) := by
  have chosen : matchId? ids name = none ↔ related ids name = [] :=
    matchId?_eq_none_iff.trans candidates_eq_nil_iff
  refine ⟨chosen, fun some => ?_, candidates_subset_related, fun before id after split same first => ?_,
    fun distinct id hid => ?_⟩
  · obtain ⟨id, found⟩ := Option.ne_none_iff_exists'.mp (mt chosen.mp some)
    exact ⟨id, mem_candidates_of_matchId? found, found⟩
  · refine matchId?_of_find? (List.find?_eq_some_iff_append.mpr ⟨beq_iff_eq.mpr same, before, after,
      split, fun other mem => ?_⟩)
    simpa using first other mem
  · cases found : ids.find? fun i => normalized i == normalized id with
    | none => exact absurd (beq_iff_eq.mpr rfl) (List.find?_eq_none.mp found id hid)
    | some other =>
      obtain ⟨mem, same⟩ := of_find?_normalized found
      rw [matchId?_of_find? found, distinct other mem id hid same]

/-- Orders of two schemas, those of the sales written in two ways. -/
def orderTables : List String := ["archive.orders", "sales.orders", "[Sales].[Orders]"]

theorem lookups_agree_orderTables :
    related orderTables "Orders" ≠ [] ∧
    (∃ id ∈ candidates orderTables "Orders", matchId? orderTables "Orders" = some id) ∧
    matchId? orderTables "SALES . orders" = some "sales.orders" ∧
    (∀ a ∈ orderTables.take 2, ∀ b ∈ orderTables.take 2, normalized a = normalized b → a = b) ∧
    ∀ id ∈ orderTables.take 2, matchId? (orderTables.take 2) id = some id := by
  have some_related : related orderTables "Orders" ≠ [] := by decide +kernel
  have distinct : ∀ a ∈ orderTables.take 2, ∀ b ∈ orderTables.take 2,
      normalized a = normalized b → a = b := by decide +kernel
  have both_ways := lookups_agree orderTables "SALES . orders"
  refine ⟨some_related, (lookups_agree orderTables "Orders").2.1 some_related, ?_, distinct,
    (lookups_agree (orderTables.take 2) "").2.2.2.2 distinct⟩
  exact both_ways.2.2.2.1 ["archive.orders"] "sales.orders" ["[Sales].[Orders]"] rfl
    (by decide +kernel) (by decide +kernel)

end QueryWorkbench.Highlight
