/-
QueryWorkbench.Proofs.JoinPath.Neighbourhood — the tables within a number of hops.

Tables are gathered by spreading from one table: each level adds the new neighbours of the level
before it. A table is gathered exactly when a walk within the limit leads to it
(`mem_connectedTables_iff_walk`). That is also when an enumeration of paths finds one, although it
keeps whole trails and passes tables again: the two searches agree on what can be reached
(`mem_connectedTables_iff_allPaths_ne_nil`).

## How the proof goes

`Explored` is what holds after `n` levels: known are the tables that some walk of at most `n` edges
reaches, and on the level are those that no shorter walk reaches. A level keeps it
(`Explored.next`), and the induction on the remaining levels starts at any of them
(`Explored.mem_spread_iff`). A level may be empty before the limit is reached; then the spreading
stops, and it would have added nothing (`spread_nil`). The two searches are not compared with each
other. Each is compared with walks, the other one by `search_ne_nil_iff`.

## The side conditions

* The two tables are different. The first table is always gathered, but no path leads from a table
  to itself.
* The limit is not negative. Spreading takes a negative limit for none, and the enumeration refuses
  it.
-/
import QueryWorkbench.Proofs.JoinPath.Shortest

namespace QueryWorkbench.PathFinder

open JoinPath

variable {edges : List Edge} {start : String}

/-! ## One level -/

theorem mem_newNeighbours {known level : List String} {table : String} :
    table ∈ newNeighbours edges known level ↔
      (∃ x ∈ level, Adjacent edges x table) ∧ table ∉ known := by
  simp only [newNeighbours, List.mem_filter, List.mem_eraseDups, List.mem_map, List.mem_flatMap,
    adjacent_iff_exists_hop, decide_eq_true_eq]
  refine and_congr_left' ⟨?_, ?_⟩
  · rintro ⟨h, ⟨x, hx, hh⟩, arrived⟩
    exact ⟨x, hx, h, hh, arrived⟩
  · rintro ⟨x, hx, h, hh, arrived⟩
    exact ⟨h, ⟨x, hx, hh⟩, arrived⟩

/-- What is known after a number of levels, and what the last one has added: the tables that so
many edges reach, and those of them that fewer do not. -/
structure Explored (edges : List Edge) (start : String) (n : Nat) (known level : List String) :
    Prop where
  mem_known : ∀ {table}, table ∈ known ↔ ∃ m ≤ n, Walk edges start m table
  mem_level : ∀ {table}, table ∈ level ↔
    Walk edges start n table ∧ ∀ m < n, ¬ Walk edges start m table

theorem explored_start (edges : List Edge) (start : String) :
    Explored edges start 0 [start] [start] where
  mem_known := by
    intro table
    rw [List.mem_singleton]
    constructor
    · rintro rfl
      exact ⟨0, Nat.le_refl 0, .start⟩
    · rintro ⟨m, hm, w⟩
      obtain rfl := Nat.le_zero.mp hm
      exact w.eq_of_zero
  mem_level := by
    intro table
    rw [List.mem_singleton]
    constructor
    · rintro rfl
      exact ⟨.start, fun m hm => absurd hm (Nat.not_lt_zero m)⟩
    · rintro ⟨w, -⟩
      exact w.eq_of_zero

/-- The new neighbours of a level are the tables that one edge more reaches first. -/
theorem Explored.mem_newNeighbours_iff {n : Nat} {known level : List String}
    (explored : Explored edges start n known level) {table : String} :
    table ∈ newNeighbours edges known level ↔
      Walk edges start (n + 1) table ∧ ∀ m < n + 1, ¬ Walk edges start m table := by
  rw [mem_newNeighbours, explored.mem_known]
  constructor
  · rintro ⟨⟨x, hx, adjacent⟩, unknown⟩
    refine ⟨.step (explored.mem_level.mp hx).1 adjacent, fun m hm w => ?_⟩
    exact unknown ⟨m, Nat.le_of_lt_succ hm, w⟩
  · rintro ⟨w, first⟩
    obtain ⟨x, wx, adjacent⟩ := w.last
    -- The table before it is on the level: a shorter walk there would give a shorter one here.
    have first_x : ∀ m < n, ¬ Walk edges start m x :=
      fun m hm wm => first (m + 1) (Nat.succ_lt_succ hm) (.step wm adjacent)
    refine ⟨⟨x, explored.mem_level.mpr ⟨wx, first_x⟩, adjacent⟩, ?_⟩
    rintro ⟨m, hm, wm⟩
    exact first m (Nat.lt_succ_of_le hm) wm

/-- The next level adds what one edge more reaches. -/
theorem Explored.next {n : Nat} {known level : List String}
    (explored : Explored edges start n known level) :
    Explored edges start (n + 1) (known ++ newNeighbours edges known level)
      (newNeighbours edges known level) where
  mem_level := explored.mem_newNeighbours_iff
  mem_known := by
    intro table
    rw [List.mem_append, explored.mem_known, explored.mem_newNeighbours_iff]
    constructor
    · rintro (⟨m, hm, w⟩ | ⟨w, -⟩)
      · exact ⟨m, Nat.le_succ_of_le hm, w⟩
      · exact ⟨n + 1, Nat.le_refl _, w⟩
    · rintro ⟨m, hm, w⟩
      obtain ⟨k, hk, wk, first⟩ := w.exists_shortest
      rcases Nat.lt_or_ge k (n + 1) with earlier | late
      · exact Or.inl ⟨k, Nat.le_of_lt_succ earlier, wk⟩
      · obtain rfl : k = n + 1 := Nat.le_antisymm (hk.trans hm) late
        exact Or.inr ⟨wk, first⟩

/-! ## All levels -/

/-- Nothing spreads from an empty level. -/
theorem spread_nil (edges : List Edge) (more : Nat) (known : List String) :
    spread edges more known [] = known := by
  cases more <;> rfl

/-- Spreading adds level after level; that it stops at the first empty one makes no difference. -/
theorem spread_succ (edges : List Edge) (more : Nat) (known level : List String) :
    spread edges (more + 1) known level =
      spread edges more (known ++ newNeighbours edges known level)
        (newNeighbours edges known level) := by
  rw [spread]
  split
  · rename_i none
    rw [none, List.append_nil, spread_nil]
  · rfl

/-- Spreading on from an explored neighbourhood finds what so many more edges reach. -/
theorem Explored.mem_spread_iff {n : Nat} {known level : List String}
    (explored : Explored edges start n known level) (more : Nat) {table : String} :
    table ∈ spread edges more known level ↔ ∃ m ≤ n + more, Walk edges start m table := by
  induction more generalizing n known level with
  | zero => exact explored.mem_known
  | succ more ih =>
    rw [spread_succ, ih explored.next, Nat.add_right_comm, Nat.add_assoc]

/-- The tables within a number of hops are those that a walk of at most so many edges reaches. -/
theorem mem_connectedTables_iff_walk (f : PathFinder) {start table : String} {limit : Int} :
    table ∈ f.connectedTables start limit ↔
      ∃ n ≤ limit.toNat, Walk f.graph.edges start n table := by
  rw [connectedTables, (explored_start _ _).mem_spread_iff, Nat.zero_add]

/-- A table is within a number of hops of another one exactly when the enumeration within so many
hops finds a path there. -/
theorem mem_connectedTables_iff_allPaths_ne_nil (f : PathFinder) {start table : String}
    (hne : start ≠ table) {limit : Int} (hl : 0 ≤ limit) :
    ∃ paths, f.allPaths start table (some limit) = .ok paths ∧
      (table ∈ f.connectedTables start limit ↔ paths ≠ []) := by
  refine ⟨_, f.allPaths_of_nonneg start table hl, ?_⟩
  rw [mem_connectedTables_iff_walk, search_ne_nil_iff hne]
  rfl

/-- From `a`, the table `e` is two hops away, over `d`. -/
theorem mem_connectedTables_iff_allPaths_ne_nil_detour :
    "a" ≠ "e" ∧ (0 : Int) ≤ 2 ∧ "e" ∈ detour.connectedTables "a" 2 ∧
      ∃ paths, detour.allPaths "a" "e" (some 2) = .ok paths ∧
        ("e" ∈ detour.connectedTables "a" 2 ↔ paths ≠ []) :=
  ⟨by decide, by decide, by decide,
    mem_connectedTables_iff_allPaths_ne_nil detour (by decide) (by decide)⟩

end QueryWorkbench.PathFinder
