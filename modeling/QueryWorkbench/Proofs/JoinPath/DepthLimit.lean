/-
QueryWorkbench.Proofs.JoinPath.DepthLimit — what a depth limit does to an enumeration of paths.

A limit cuts the list of paths off and changes nothing before the cut (`allPaths_eq_filter`).
However many simple chains there are, the number of paths grows with the limit only: no length has
more paths than edges lead to the goal (`length_allPaths_le`).

## How the proof goes

A search lists level after level, and what arrives on a level has one hop for each level before it.
Keeping the paths of some lengths is therefore keeping the levels of these numbers
(`filter_flatMap_arrivals`), and a smaller limit keeps the first ones (`search_eq_filter`).

For the number of paths only one step is needed. The trails that are carried on have come to
different tables (`nodup_firstAtEach`), none of them the goal. So each edge at the goal is the last
one of a single path at most, and one from the goal to itself of none (`length_hopsFrom_le`,
`length_arrivals_le`). The rest is counting over the levels (`countP_length_search_le`,
`length_search_le`).

## The side conditions

Limits are not negative, and a missing one is that of the finder. The smaller one is at most the
larger one. Nothing is asked of the tables: for a table and itself there are no paths, and both
statements hold of no paths.
-/
import Mathlib.Algebra.Order.BigOperators.Group.List
import Mathlib.Algebra.Order.Group.Nat
import QueryWorkbench.Proofs.JoinPath.Arrival

namespace QueryWorkbench

/-! ## Lists -/

/-- Under different keys no element is listed twice. -/
theorem length_flatMap_filter {α κ : Type} [DecidableEq κ] (key : α → κ) (l : List α)
    {keys : List κ} (nodup : keys.Nodup) :
    (keys.flatMap fun k => l.filter (key · = k)).length = l.countP (key · ∈ keys) := by
  induction keys with
  | nil => simp
  | cons k keys ih =>
    obtain ⟨new, nodup⟩ := List.nodup_cons.mp nodup
    have either : ∀ l : List α,
        l.countP (key · = k) + l.countP (key · ∈ keys) = l.countP (key · ∈ k :: keys) := by
      intro l
      induction l with
      | nil => rfl
      | cons a l step => grind
    rw [List.flatMap_cons, List.length_append, ← List.countP_eq_length_filter, ih nodup, either]

theorem filter_range_le {n m : Nat} (le : n ≤ m) :
    (List.range (m + 1)).filter (· ≤ n) = List.range (n + 1) := by
  obtain ⟨more, rfl⟩ := Nat.exists_eq_add_of_le le
  rw [Nat.add_right_comm, List.range_add, List.filter_append, List.filter_eq_self.mpr,
    List.filter_eq_nil_iff.mpr, List.append_nil]
  · intro i hi
    obtain ⟨j, -, rfl⟩ := List.mem_map.mp hi
    simp only [decide_eq_true_eq]
    omega
  · intro i hi
    simpa [Nat.lt_succ_iff] using hi

/-! ## Edges at a table -/

/-- An edge leads from a table to another one, or from another one to it. -/
def Edge.joinsToAnother (table : String) (e : Edge) : Bool :=
  (e.source == table && e.target != table) || (e.target == table && e.source != table)

namespace JoinPath

variable {edges : List Edge} {start goal : String}

/-- The hops to a table from other ones are as many as the edges between. -/
theorem countP_allHops (edges : List Edge) (table : String) :
    ((allHops edges).filter (·.target = table)).countP (·.source ≠ table) =
      edges.countP (·.joinsToAnother table) := by
  induction edges with
  | nil => rfl
  | cons e rest ih =>
    have first : ([e.forward, e.backward].filter (·.target = table)).countP (·.source ≠ table) =
        if e.joinsToAnother table then 1 else 0 := by
      by_cases hs : e.source = table <;> by_cases ht : e.target = table <;>
        simp [Edge.joinsToAnother, Edge.forward, Edge.backward, hs, ht]
    have split : allHops (e :: rest) = [e.forward, e.backward] ++ allHops rest := rfl
    rw [split, List.filter_append, List.countP_append, ih, first, List.countP_cons, Nat.add_comm]

/-- From different tables, no more hops lead to another one than edges join it to others. -/
theorem length_hopsFrom_le {tables : List String} (nodup : tables.Nodup) (away : goal ∉ tables) :
    (tables.flatMap fun x => (hopsFrom edges x).filter (·.target = goal)).length ≤
      edges.countP (·.joinsToAnother goal) := by
  have from_table : (fun x => (hopsFrom edges x).filter (·.target = goal)) =
      fun x => ((allHops edges).filter (·.target = goal)).filter (·.source = x) := by
    funext x
    rw [hopsFrom_eq_filter, List.filter_comm]
  rw [from_table, length_flatMap_filter Hop.source _ nodup, ← countP_allHops]
  refine List.countP_mono_left fun h _ there => ?_
  exact decide_eq_true fun back => away (back ▸ of_decide_eq_true there)

/-! ## Cutting at a length -/

/-- Keeping the paths of some lengths is keeping the levels of these numbers. -/
theorem filter_flatMap_arrivals (keep : Nat → Bool) (levels : List Nat) :
    (levels.flatMap fun i => arrivals goal (levelAt edges start goal i)).filter
        (fun p => keep p.length) =
      (levels.filter keep).flatMap fun i => arrivals goal (levelAt edges start goal i) := by
  induction levels with
  | nil => rfl
  | cons i rest ih =>
    have same : ∀ p ∈ arrivals goal (levelAt edges start goal i), keep p.length = keep i :=
      fun p hp => congrArg keep (length_of_mem_arrivals hp)
    rw [List.flatMap_cons, List.filter_append, ih]
    cases kept : keep i with
    | true =>
      rw [List.filter_eq_self.mpr fun p hp => (same p hp).trans kept,
        List.filter_cons_of_pos kept, List.flatMap_cons]
    | false =>
      have none : ∀ p ∈ arrivals goal (levelAt edges start goal i), ¬ keep p.length = true := by
        intro p hp
        rw [same p hp, kept]
        exact Bool.false_ne_true
      rw [List.filter_eq_nil_iff.mpr none, List.filter_cons_of_neg (by simp [kept]),
        List.nil_append]

/-- A search finds what a search with a larger limit finds within its own. -/
theorem search_eq_filter {limit larger : Nat} (le : limit ≤ larger) :
    search edges start goal limit =
      (search edges start goal larger).filter fun p => p.length ≤ limit := by
  by_cases hne : start = goal
  · rw [search, if_pos hne, search, if_pos hne]
    rfl
  · rw [search_eq hne, search_eq hne, filter_flatMap_arrivals (· ≤ limit), filter_range_le le]

/-! ## The paths of one length -/

theorem arrivals_flatMap (f : Trail → List Trail) (level : List Trail) :
    arrivals goal (level.flatMap f) = level.flatMap fun t => arrivals goal (f t) := by
  simp only [arrivals, List.filter_flatMap, List.map_flatMap]

/-- A trail comes to the goal by the hops that lead there at most. -/
theorem length_arrivals_extensions_le (t : Trail) :
    (arrivals goal (t.extensions edges start)).length ≤
      ((hopsFrom edges t.here).filter (·.target = goal)).length := by
  rw [arrivals, List.length_map, ← List.countP_eq_length_filter, Trail.extensions, List.countP_map,
    ← List.countP_eq_length_filter]
  exact List.filter_sublist.countP_le

/-- The trails that are carried on have come to different tables. -/
theorem nodup_firstAtEach (seen : List String) (level : List Trail) :
    ((firstAtEach seen level).map (·.here)).Nodup := by
  induction level generalizing seen with
  | nil => exact List.nodup_nil
  | cons t rest ih =>
    rw [firstAtEach]
    split
    · exact ih seen
    · refine List.nodup_cons.mpr ⟨fun again => ?_, ih _⟩
      obtain ⟨u, hu, same⟩ := List.mem_map.mp again
      exact here_not_mem_of_mem_firstAtEach hu (same ▸ List.mem_cons_self ..)

theorem arrivals_levelAt_zero (hne : start ≠ goal) :
    arrivals goal (levelAt edges start goal 0) = [] := by
  simp [arrivals, levelAt, hne]

/-- No more paths arrive on a level than edges lead to the goal. -/
theorem length_arrivals_le (hne : start ≠ goal) (n : Nat) :
    (arrivals goal (levelAt edges start goal n)).length ≤ edges.countP (·.joinsToAnother goal) := by
  cases n with
  | zero =>
    rw [arrivals_levelAt_zero hne]
    exact Nat.zero_le _
  | succ n =>
    have away : goal ∉ (carried goal (levelAt edges start goal n)).map (·.here) := by
      intro there
      obtain ⟨t, ht, arrived⟩ := List.mem_map.mp there
      exact (mem_open.mp (mem_of_mem_firstAtEach ht)).2 arrived
    refine le_trans ?_ (length_hopsFrom_le (nodup_firstAtEach [] _) away)
    rw [levelAt_succ, arrivals_flatMap, List.flatMap_map, List.length_flatMap, List.length_flatMap]
    exact List.sum_le_sum fun t _ => length_arrivals_extensions_le t

/-- A search finds no more paths of one length than edges lead to the goal. -/
theorem countP_length_search_le (limit n : Nat) :
    (search edges start goal limit).countP (·.length = n) ≤
      edges.countP (·.joinsToAnother goal) := by
  by_cases hne : start = goal
  · rw [search, if_pos hne]
    exact Nat.zero_le _
  · have once : (List.range (limit + 1)).count n ≤ 1 :=
      List.nodup_iff_count_le_one.mp List.nodup_range n
    rw [List.countP_eq_length_filter, search_eq hne, filter_flatMap_arrivals (· = n),
      List.filter_eq, List.length_flatMap, List.map_replicate, List.sum_replicate_nat]
    refine (Nat.mul_le_mul_right _ once).trans ?_
    rw [Nat.one_mul]
    exact length_arrivals_le hne n

/-- A search finds no more paths for each hop of its limit than edges lead to the goal. -/
theorem length_search_le (limit : Nat) :
    (search edges start goal limit).length ≤ limit * edges.countP (·.joinsToAnother goal) := by
  by_cases hne : start = goal
  · rw [search, if_pos hne]
    exact Nat.zero_le _
  · rw [search_eq hne, List.range_succ_eq_map, List.flatMap_cons, arrivals_levelAt_zero hne,
      List.nil_append, List.length_flatMap]
    have bounded : ∀ c ∈ ((List.range limit).map Nat.succ).map fun i =>
        (arrivals goal (levelAt edges start goal i)).length,
        c ≤ edges.countP (·.joinsToAnother goal) := by
      intro c hc
      obtain ⟨i, -, rfl⟩ := List.mem_map.mp hc
      exact length_arrivals_le hne i
    simpa using List.sum_le_card_nsmul _ _ bounded

end JoinPath

namespace PathFinder

open JoinPath

/-- Of two limits that are not negative the smaller one only cuts: it leaves, in their order, the
paths that are no longer than itself. -/
theorem allPaths_eq_filter (f : PathFinder) (start goal : String) {limit larger : Option Int}
    (hl : 0 ≤ limit.getD f.maxDepth) (le : limit.getD f.maxDepth ≤ larger.getD f.maxDepth) :
    ∃ paths, f.allPaths start goal larger = .ok paths ∧
      f.allPaths start goal limit =
        .ok (paths.filter fun p => p.length ≤ limit.getD f.maxDepth) := by
  refine ⟨_, f.allPaths_of_nonneg start goal (hl.trans le), ?_⟩
  have cut : ∀ p : JoinPath, decide (p.length ≤ limit.getD f.maxDepth) =
      decide (p.length ≤ (limit.getD f.maxDepth).toNat) :=
    fun p => decide_eq_decide.mpr (by omega)
  rw [f.allPaths_of_nonneg start goal hl, search_eq_filter (Int.toNat_le_toNat le)]
  simp only [cut]

/-- Of the two paths from `a` to `c` the limit cuts off the one over `b`. -/
theorem allPaths_eq_filter_crossing :
    0 ≤ (some 1 : Option Int).getD crossing.maxDepth ∧
      (some 1 : Option Int).getD crossing.maxDepth ≤
        (none : Option Int).getD crossing.maxDepth ∧
      ∃ paths, crossing.allPaths "a" "c" none = .ok paths ∧ paths.length = 2 ∧
        crossing.allPaths "a" "c" (some 1) =
          .ok (paths.filter fun p => p.length ≤ (some 1 : Option Int).getD crossing.maxDepth) := by
  have within : 0 ≤ (some 1 : Option Int).getD crossing.maxDepth := by decide
  have le : (some 1 : Option Int).getD crossing.maxDepth ≤
      (none : Option Int).getD crossing.maxDepth := by decide
  obtain ⟨paths, listed, cut⟩ := allPaths_eq_filter crossing "a" "c" within le
  have two : (crossing.allPaths "a" "c" none).map List.length = .ok 2 := by rfl
  rw [listed] at two
  exact ⟨within, le, paths, listed, Except.ok.inj two, cut⟩

/-- Within a limit that is not negative the enumeration lists, of each length, no more paths than
edges join the goal to another table, and altogether no more than so many for each hop of the
limit. -/
theorem length_allPaths_le (f : PathFinder) (start goal : String) {limit : Option Int}
    (hl : 0 ≤ limit.getD f.maxDepth) :
    ∃ paths, f.allPaths start goal limit = .ok paths ∧
      (∀ n : Nat, paths.countP (·.length = n) ≤ f.graph.edges.countP (·.joinsToAnother goal)) ∧
      (paths.length : Int) ≤
        limit.getD f.maxDepth * f.graph.edges.countP (·.joinsToAnother goal) := by
  refine ⟨_, f.allPaths_of_nonneg start goal hl, countP_length_search_le _, ?_⟩
  have bounded : ((search f.graph.edges start goal (limit.getD f.maxDepth).toNat).length : Int) ≤
      ((limit.getD f.maxDepth).toNat * f.graph.edges.countP (·.joinsToAnother goal) : Nat) :=
    Int.ofNat_le.mpr (length_search_le _)
  rwa [Int.natCast_mul, Int.toNat_of_nonneg hl] at bounded

/-- Three edges lead to `b`. Two of them are paths of one hop, and the third one ends a path of
two. -/
theorem length_allPaths_le_crossing :
    0 ≤ (some 2 : Option Int).getD crossing.maxDepth ∧
      crossing.graph.edges.countP (·.joinsToAnother "b") = 3 ∧
      ∃ paths, crossing.allPaths "a" "b" (some 2) = .ok paths ∧ paths.length = 3 ∧
        (∀ n : Nat, paths.countP (·.length = n) ≤
          crossing.graph.edges.countP (·.joinsToAnother "b")) ∧
        (paths.length : Int) ≤ (some 2 : Option Int).getD crossing.maxDepth *
          crossing.graph.edges.countP (·.joinsToAnother "b") := by
  have within : 0 ≤ (some 2 : Option Int).getD crossing.maxDepth := by decide
  obtain ⟨paths, listed, bounded⟩ := length_allPaths_le crossing "a" "b" within
  have three : (crossing.allPaths "a" "b" (some 2)).map List.length = .ok 3 := by rfl
  rw [listed] at three
  exact ⟨within, by decide, paths, listed, Except.ok.inj three, bounded⟩

end PathFinder

end QueryWorkbench
