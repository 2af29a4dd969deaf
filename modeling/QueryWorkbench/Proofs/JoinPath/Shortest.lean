/-
QueryWorkbench.Proofs.JoinPath.Shortest — the best path is as short as any walk.

There is a best path exactly when a walk within the depth leads from one table to the other, and
then no walk between them is shorter (`bestPath_shortest`).

## How the proof goes

A search drops trails twice: of those at one table only the first is carried on, and none goes back
to a table that it has passed. Neither cuts off a shortest route. A table first reached by `n` hops
has a trail on level `n` (`exists_trail_of_first`, by induction on `n`): its neighbour on a shortest
walk has one on the level before, whichever that is, and the tables on it are all nearer, so that
the last hop is not held back. In the other direction a trail is a walk (`Trail.Sound`). So the
first arrival is on the level of the least walk (`isLeast_of_head?_search`), and there is one as
soon as there is a walk within the limit (`search_ne_nil_iff`).

## The side conditions

* The two tables are different. From a table to itself there is a walk of no edges and no path.
* The depth is not negative, which the search refuses.

The graph may be any. A table that no node describes has walks too, along the edges that name it.
-/
import Mathlib.Order.Bounds.Basic
import QueryWorkbench.JoinPath.Finder
import QueryWorkbench.Proofs.JoinPath.Levels

namespace QueryWorkbench

namespace JoinPath

variable {edges : List Edge} {start goal : String}

/-! ## Levels and distances -/

/-- A table that is reached by `n` hops and not by fewer has a trail on level `n`, unless the
goal comes before it. -/
theorem exists_trail_of_first {n : Nat} : ∀ {x : String}, Walk edges start n x →
    (∀ m < n, ¬ Walk edges start m x) → (∀ m < n, ¬ Walk edges start m goal) →
    ∃ t ∈ levelAt edges start goal n, t.here = x := by
  induction n with
  | zero =>
    intro x w _ _
    exact ⟨⟨start, []⟩, List.mem_singleton_self _, w.eq_of_zero.symm⟩
  | succ n ih =>
    intro x w first early
    obtain ⟨y, wy, adjacent⟩ := w.last
    have first_y : ∀ m < n, ¬ Walk edges start m y :=
      fun m hm wm => first (m + 1) (by omega) (.step wm adjacent)
    obtain ⟨t, ht, rfl⟩ := ih wy first_y fun m hm => early m (by omega)
    have open_here : t.here ≠ goal := by
      rintro rfl
      exact early n (by omega) wy
    have carried : t ∈ (levelAt edges start goal n).filter (·.here ≠ goal) :=
      List.mem_filter.mpr ⟨ht, by simpa using open_here⟩
    obtain ⟨u, hu, same⟩ := exists_mem_firstAtEach carried List.not_mem_nil
    have us := sound_of_mem_levelAt (List.mem_filter.mp (mem_of_mem_firstAtEach hu)).1
    obtain ⟨h, hh, rfl⟩ := adjacent_iff_exists_hop.mp adjacent
    -- What is on the trail is nearer than the table that the hop leads to.
    have new : h.target ∉ start :: u.hops.map (·.target) := by
      intro passed
      obtain ⟨m, hm, wm⟩ := us.chain.exists_walk_of_mem passed
      exact first m (by rw [us.length] at hm; omega) wm
    exact ⟨_, List.mem_flatMap.mpr ⟨u, hu, mem_extensions.mpr ⟨h, same ▸ hh, new, rfl⟩⟩, rfl⟩

/-- What arrives on a level has walked as many edges. -/
theorem walk_of_mem_arrivals {n : Nat} {p : JoinPath}
    (hp : p ∈ arrivals goal (levelAt edges start goal n)) :
    p.length = n ∧ Walk edges start n goal := by
  obtain ⟨t, ht, rfl, rfl⟩ := mem_arrivals.mp hp
  have ts := sound_of_mem_levelAt ht
  have hw := ts.chain.walk
  rw [ts.length] at hw
  exact ⟨ts.length, hw⟩

/-- Something arrives on the level of the least walk to the goal. -/
theorem exists_arrival_of_first {n : Nat} (w : Walk edges start n goal)
    (first : ∀ m < n, ¬ Walk edges start m goal) :
    ∃ p, p ∈ arrivals goal (levelAt edges start goal n) := by
  obtain ⟨t, ht, hg⟩ := exists_trail_of_first w first first
  exact ⟨⟨t.hops⟩, mem_arrivals.mpr ⟨t, ht, hg, rfl⟩⟩

/-! ## The first path of a search -/

/-- A search finds something exactly when the goal can be walked to within its limit. -/
theorem search_ne_nil_iff (hne : start ≠ goal) (limit : Nat) :
    search edges start goal limit ≠ [] ↔ ∃ n ≤ limit, Walk edges start n goal := by
  rw [search_eq hne]
  constructor
  · intro found
    obtain ⟨p, hp⟩ := List.exists_mem_of_ne_nil _ found
    obtain ⟨i, hi, hp⟩ := List.mem_flatMap.mp hp
    exact ⟨i, by have := List.mem_range.mp hi; omega, (walk_of_mem_arrivals hp).2⟩
  · rintro ⟨n, hn, w⟩
    obtain ⟨m, hm, wm, first⟩ := w.exists_shortest
    obtain ⟨p, hp⟩ := exists_arrival_of_first wm first
    exact List.ne_nil_of_mem (List.mem_flatMap.mpr ⟨m, List.mem_range.mpr (by omega), hp⟩)

/-- The first path that a search finds comes from the first level with an arrival. -/
theorem exists_level_of_head?_search {limit : Nat} {p : JoinPath} (hne : start ≠ goal)
    (hp : (search edges start goal limit).head? = some p) :
    ∃ i, p ∈ arrivals goal (levelAt edges start goal i) ∧
      ∀ m < i, arrivals goal (levelAt edges start goal m) = [] := by
  rw [search_eq hne, List.head?_flatMap, List.findSome?_eq_some_iff] at hp
  obtain ⟨before, i, after, split, first, none_before⟩ := hp
  rw [List.range_eq_range'] at split
  obtain ⟨k, _, rfl, from_i⟩ := List.range'_eq_append_iff.mp split
  obtain ⟨rfl, -⟩ := List.range'_eq_cons_iff.mp from_i.symm
  refine ⟨_, List.mem_of_head? first, fun m hm => ?_⟩
  exact List.head?_eq_none_iff.mp (none_before m (List.mem_range'_1.mpr (by omega)))

/-- The first path that a search finds has the length of the shortest walk. -/
theorem isLeast_of_head?_search {limit : Nat} {p : JoinPath} (hne : start ≠ goal)
    (hp : (search edges start goal limit).head? = some p) :
    IsLeast {n | Walk edges start n goal} p.length := by
  obtain ⟨i, arrived, none_before⟩ := exists_level_of_head?_search hne hp
  obtain ⟨length_eq, w⟩ := walk_of_mem_arrivals arrived
  refine ⟨length_eq ▸ w, fun n wn => ?_⟩
  -- A shorter walk would have made something arrive on an earlier level.
  obtain ⟨m, hm, wm, least⟩ := Walk.exists_shortest wn
  obtain ⟨q, hq⟩ := exists_arrival_of_first wm least
  have not_earlier : ¬ m < i := by
    intro earlier
    rw [none_before m earlier] at hq
    exact List.not_mem_nil hq
  omega

end JoinPath

namespace PathFinder

open JoinPath

/-- The best path within a limit that is not negative: there is one exactly when the goal can be
reached by a walk of no more edges, and it has as many hops as the shortest walk has edges. -/
theorem bestPath_shortest (f : PathFinder) {start goal : String} (hne : start ≠ goal)
    (hk : 0 ≤ f.bestDepth) :
    ∃ best, f.bestPath start goal = .ok best ∧
      (best.isSome ↔ ∃ n : Nat, n ≤ f.bestDepth ∧ Walk f.graph.edges start n goal) ∧
      ∀ p, best = some p → IsLeast {n | Walk f.graph.edges start n goal} p.length := by
  refine ⟨(search f.graph.edges start goal f.bestDepth.toNat).head?, ?_, ?_, ?_⟩
  · have within : ¬ f.bestDepth < 0 := by omega
    simp [bestPath, candidatePaths, allPaths, within, Except.map]
  · rw [List.isSome_head?, search_ne_nil_iff hne]
    constructor
    · rintro ⟨n, hn, w⟩
      exact ⟨n, by omega, w⟩
    · rintro ⟨n, hn, w⟩
      exact ⟨n, by omega, w⟩
  · intro p hp
    exact isLeast_of_head?_search hne hp

/-- Two ways from `a` to `c`: over `b`, against the direction of one edge, and over `d` and `e`. -/
def detour : PathFinder where
  graph :=
    { edges := [⟨"1", "a", "d", "x", "x", none⟩, ⟨"2", "d", "e", "x", "x", none⟩,
        ⟨"3", "e", "c", "x", "x", none⟩, ⟨"4", "a", "b", "x", "x", none⟩,
        ⟨"5", "c", "b", "x", "x", none⟩] }
  maxDepth := 5
  bestDepth := 3

theorem bestPath_shortest_detour :
    "a" ≠ "c" ∧ 0 ≤ detour.bestDepth ∧
      ∃ best, detour.bestPath "a" "c" = .ok best ∧
        (best.isSome ↔ ∃ n : Nat, n ≤ detour.bestDepth ∧ Walk detour.graph.edges "a" n "c") ∧
        ∀ p, best = some p → IsLeast {n | Walk detour.graph.edges "a" n "c"} p.length :=
  ⟨by decide, by decide, bestPath_shortest detour (by decide) (by decide)⟩

end PathFinder

end QueryWorkbench
