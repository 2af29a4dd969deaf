/-
QueryWorkbench.Proofs.JoinPath.Levels — the levels of a path search.

`levelAt` is the search after a number of steps, and `search_eq` takes the recursion on the
levels left apart: the search lists the arrivals of one level after the other. What holds of every
trail of a level is one invariant, `Trail.Sound`, kept by each step (`sound_of_mem_nextLevel`):
the trail is a chain with one hop for each level, and no table is on it twice.
-/
import Mathlib.Data.List.Nodup
import QueryWorkbench.JoinPath.Search
import QueryWorkbench.Proofs.JoinPath.Walk

namespace QueryWorkbench.JoinPath

variable {edges : List Edge} {start goal : String}

/-- The trails of a level of the search. -/
def levelAt (edges : List Edge) (start goal : String) : Nat → List Trail
  | 0 => [⟨start, []⟩]
  | n + 1 => nextLevel edges start goal (levelAt edges start goal n)

/-! ## The search as a list of levels -/

theorem nextLevel_nil : nextLevel edges start goal [] = [] := rfl

/-- After an empty level all levels are empty. -/
theorem levelAt_eq_nil_of_le {n i : Nat} (empty : levelAt edges start goal n = []) (hi : n ≤ i) :
    levelAt edges start goal i = [] := by
  induction hi with
  | refl => exact empty
  | step _ ih => rw [levelAt, ih, nextLevel_nil]

/-- The levels from one on: their arrivals, level by level. -/
theorem searchLevels_levelAt (more n : Nat) :
    searchLevels edges start goal more (levelAt edges start goal n) =
      (List.range' n (more + 1)).flatMap fun i => arrivals goal (levelAt edges start goal i) := by
  induction more generalizing n with
  | zero => simp [searchLevels]
  | succ more ih =>
    have next : nextLevel edges start goal (levelAt edges start goal n) =
        levelAt edges start goal (n + 1) := rfl
    rw [searchLevels, next, ih (n + 1)]
    split
    · -- The search stops here, and the levels that are left out have no trails.
      rename_i empty
      have nothing : ∀ i ∈ List.range' n (more + 1 + 1),
          arrivals goal (levelAt edges start goal i) = [] := by
        intro i hi
        rw [levelAt_eq_nil_of_le (List.isEmpty_iff.mp empty) (List.mem_range'_1.mp hi).1]
        rfl
      exact (List.flatMap_eq_nil_iff.mpr nothing).symm
    · rfl

/-- A search between two tables lists the arrivals of each level up to its limit. -/
theorem search_eq (hne : start ≠ goal) (limit : Nat) :
    search edges start goal limit =
      (List.range (limit + 1)).flatMap fun i => arrivals goal (levelAt edges start goal i) := by
  rw [search, if_neg hne, List.range_eq_range']
  exact searchLevels_levelAt limit 0

theorem mem_arrivals {level : List Trail} {p : JoinPath} :
    p ∈ arrivals goal level ↔ ∃ t ∈ level, t.here = goal ∧ p = ⟨t.hops⟩ := by
  simp only [arrivals, List.mem_map, List.mem_filter, decide_eq_true_eq]
  constructor
  · rintro ⟨t, ⟨ht, hg⟩, rfl⟩
    exact ⟨t, ht, hg, rfl⟩
  · rintro ⟨t, ht, hg, rfl⟩
    exact ⟨t, ⟨ht, hg⟩, rfl⟩

/-! ## One step -/

/-- Some trail at each table is carried on. -/
theorem exists_mem_firstAtEach {level : List Trail} {seen : List String} {t : Trail}
    (ht : t ∈ level) (hs : t.here ∉ seen) : ∃ u ∈ firstAtEach seen level, u.here = t.here := by
  induction level generalizing seen with
  | nil => cases ht
  | cons u rest ih =>
    rw [firstAtEach]
    by_cases same : u.here = t.here
    · exact ⟨u, by rw [if_neg (same ▸ hs)]; exact List.mem_cons_self .., same⟩
    · have hrest : t ∈ rest := by
        rcases List.mem_cons.mp ht with rfl | h
        · exact absurd rfl same
        · exact h
      split
      · exact ih hrest hs
      · have unseen : t.here ∉ u.here :: seen := by
          rw [List.mem_cons, not_or]
          exact ⟨fun h => same h.symm, hs⟩
        obtain ⟨v, hv, hvt⟩ := ih hrest unseen
        exact ⟨v, List.mem_cons_of_mem _ hv, hvt⟩

theorem firstAtEach_sublist (seen : List String) (level : List Trail) :
    (firstAtEach seen level).Sublist level := by
  induction level generalizing seen with
  | nil => exact List.Sublist.refl []
  | cons u rest ih =>
    rw [firstAtEach]
    split
    · exact (ih seen).cons u
    · exact (ih (u.here :: seen)).cons_cons u

theorem mem_of_mem_firstAtEach {level : List Trail} {seen : List String} {t : Trail}
    (ht : t ∈ firstAtEach seen level) : t ∈ level :=
  (firstAtEach_sublist seen level).mem ht

/-- The trails of a level that are carried on. -/
def carried (goal : String) (level : List Trail) : List Trail :=
  firstAtEach [] (level.filter (·.here ≠ goal))

theorem levelAt_succ (n : Nat) :
    levelAt edges start goal (n + 1) =
      (carried goal (levelAt edges start goal n)).flatMap (·.extensions edges start) := rfl

theorem carried_sublist (goal : String) (level : List Trail) :
    (carried goal level).Sublist level :=
  (firstAtEach_sublist [] _).trans List.filter_sublist

theorem mem_extensions {t u : Trail} :
    u ∈ t.extensions edges start ↔
      ∃ h ∈ hopsFrom edges t.here, h.target ∉ start :: t.hops.map (·.target) ∧
        u = ⟨h.target, t.hops ++ [h]⟩ := by
  simp only [Trail.extensions, List.mem_map, List.mem_filter, decide_eq_true_eq]
  constructor
  · rintro ⟨h, ⟨hh, hv⟩, rfl⟩
    exact ⟨h, hh, hv, rfl⟩
  · rintro ⟨h, hh, hv, rfl⟩
    exact ⟨h, ⟨hh, hv⟩, rfl⟩

/-- A trail of the next level is one of this level, carried on by a hop to a new table. -/
theorem exists_of_mem_nextLevel {level : List Trail} {u : Trail}
    (hu : u ∈ nextLevel edges start goal level) :
    ∃ t ∈ level, t.here ≠ goal ∧ ∃ h ∈ hopsFrom edges t.here,
      h.target ∉ start :: t.hops.map (·.target) ∧ u = ⟨h.target, t.hops ++ [h]⟩ := by
  obtain ⟨t, ht, hu⟩ := List.mem_flatMap.mp hu
  have hf := List.mem_filter.mp (mem_of_mem_firstAtEach ht)
  exact ⟨t, hf.1, by simpa using hf.2, mem_extensions.mp hu⟩

/-! ## What holds of every trail -/

/-- A trail that has come from the start by so many hops and passed no table twice. -/
structure Trail.Sound (edges : List Edge) (start : String) (n : Nat) (t : Trail) : Prop where
  length : t.hops.length = n
  chain : Chain edges start t.hops t.here
  simple : (start :: t.hops.map (·.target)).Nodup

theorem sound_of_mem_nextLevel {level : List Trail} {n : Nat}
    (hl : ∀ t ∈ level, t.Sound edges start n) {u : Trail}
    (hu : u ∈ nextLevel edges start goal level) : u.Sound edges start (n + 1) := by
  obtain ⟨t, ht, _, h, hh, hv, rfl⟩ := exists_of_mem_nextLevel hu
  have ts := hl t ht
  refine ⟨?_, .snoc ts.chain hh, ?_⟩
  · simp [ts.length]
  · rw [List.map_append, ← List.cons_append, List.nodup_append]
    refine ⟨ts.simple, List.nodup_singleton _, ?_⟩
    rintro a ha b hb rfl
    obtain rfl : a = h.target := List.mem_singleton.mp hb
    exact hv ha

/-- Every trail of a level is sound. -/
theorem sound_of_mem_levelAt {n : Nat} :
    ∀ {t : Trail}, t ∈ levelAt edges start goal n → t.Sound edges start n := by
  induction n with
  | zero =>
    intro t ht
    obtain rfl := List.mem_singleton.mp ht
    exact ⟨rfl, .nil, List.nodup_singleton _⟩
  | succ n ih => exact fun ht => sound_of_mem_nextLevel (fun _ h => ih h) ht

/-- A path that a search finds is a sound trail from the start to the goal. -/
theorem exists_trail_of_mem_search {limit : Nat} {p : JoinPath}
    (hp : p ∈ search edges start goal limit) :
    start ≠ goal ∧ ∃ n ≤ limit, (⟨goal, p.hops⟩ : Trail).Sound edges start n := by
  have hne : start ≠ goal := by
    rintro rfl
    simp [search] at hp
  rw [search_eq hne, List.mem_flatMap] at hp
  obtain ⟨n, hn, hp⟩ := hp
  obtain ⟨⟨here, hops⟩, ht, rfl, rfl⟩ := mem_arrivals.mp hp
  exact ⟨hne, n, by have := List.mem_range.mp hn; omega, sound_of_mem_levelAt ht⟩

end QueryWorkbench.JoinPath
