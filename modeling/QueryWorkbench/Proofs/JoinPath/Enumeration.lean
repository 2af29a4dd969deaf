/-
QueryWorkbench.Proofs.JoinPath.Enumeration — what the enumeration of paths lists.

`JoinPath.IsSimpleChain` says of a path, without a search, that it is a chain of edges between two
tables on which no table occurs twice. Every path of an enumeration is one and within the limit, no
path comes before a shorter one, and none is listed twice (`allPaths_simple_sorted_nodup`).

## How the proof goes

The trails of a search are sound, and a sound trail that has come to the goal is such a chain
(`isSimpleChain_iff`). The list goes level by level, and all paths of a level have its number of
hops (`length_of_mem_arrivals`, `pairwise_search`). That no path is listed twice is an induction on
the level (`nodup_levelAt`): the trails of a level have different hops, of which some are carried
on, and the hops that carry one of them on are different because each has an edge of its own
(`edges_hopsFrom_sublist`, `nodup_extensions`).

## The side conditions

* The limit is not negative. The search refuses others, which is why the result is stated with it.
* The ids of the edges are different, for the last part only. A hop has the id of its edge and not
  the edge, so two edges with one id between the same columns make the same path.
-/
import Mathlib.Data.List.Induction
import QueryWorkbench.JoinPath.Finder
import QueryWorkbench.Proofs.JoinPath.Levels

namespace QueryWorkbench

/-! ## Simple chains -/

/-- A hop along an edge, as the edge is written or with its tables and its columns exchanged. -/
def Hop.Takes (h : Hop) (e : Edge) : Prop :=
  h = { source := e.source, target := e.target, sourceColumn := e.sourceColumn,
        targetColumn := e.targetColumn, edge := e.id } ∨
  h = { source := e.target, target := e.source, sourceColumn := e.targetColumn,
        targetColumn := e.sourceColumn, edge := e.id }

instance (h : Hop) (e : Edge) : Decidable (h.Takes e) :=
  inferInstanceAs (Decidable (_ = _ ∨ _ = _))

theorem mem_hopsFrom_iff_takes {edges : List Edge} {a : String} {h : Hop} :
    h ∈ hopsFrom edges a ↔ h.source = a ∧ ∃ e ∈ edges, h.Takes e := by
  rw [mem_hopsFrom]
  constructor
  · rintro ⟨e, he, ⟨rfl, rfl⟩ | ⟨rfl, rfl⟩⟩
    · exact ⟨rfl, e, he, Or.inl rfl⟩
    · exact ⟨rfl, e, he, Or.inr rfl⟩
  · rintro ⟨rfl, e, he, rfl | rfl⟩
    · exact ⟨e, he, Or.inl ⟨rfl, rfl⟩⟩
    · exact ⟨e, he, Or.inr ⟨rfl, rfl⟩⟩

/-- In a chain the tables that hops lead to are those that hops start from, one place on. -/
theorem chain_iff {edges : List Edge} {a b : String} {hops : List Hop} :
    Chain edges a hops b ↔
      a :: hops.map (·.target) = hops.map (·.source) ++ [b] ∧
        ∀ h ∈ hops, ∃ e ∈ edges, h.Takes e := by
  constructor
  · intro c
    induction c with
    | nil => exact ⟨rfl, fun _ h => absurd h List.not_mem_nil⟩
    | @snoc hops b h _ hh ih =>
      obtain ⟨source_eq, takes⟩ := mem_hopsFrom_iff_takes.mp hh
      refine ⟨?_, fun k hk => ?_⟩
      · rw [List.map_append, ← List.cons_append, ih.1, List.map_append, List.map_singleton,
          List.map_singleton, source_eq]
      · rcases List.mem_append.mp hk with hk | hk
        · exact ih.2 k hk
        · rw [List.mem_singleton.mp hk]
          exact takes
  · rintro ⟨linked, along⟩
    induction hops using List.reverseRecOn generalizing b with
    | nil =>
      obtain rfl : a = b := by simpa using linked
      exact .nil
    | append_singleton hops h ih =>
      rw [List.map_append, ← List.cons_append, List.map_append, List.map_singleton,
        List.map_singleton] at linked
      obtain ⟨linked_before, last⟩ := List.append_inj' linked rfl
      obtain rfl : h.target = b := by simpa using last
      have here := ih linked_before fun k hk => along k (List.mem_append_left _ hk)
      exact .snoc here (mem_hopsFrom_iff_takes.mpr
        ⟨rfl, along h (List.mem_append_right _ (List.mem_singleton_self h))⟩)

/-- A chain of hops between two tables on which no table occurs twice: it has hops, and its length
is their number; they start at the start and then at the tables between, they lead to these and
then to the goal; and each takes an edge. -/
structure JoinPath.IsSimpleChain (edges : List Edge) (start goal : String) (p : JoinPath) :
    Prop where
  length_eq : p.length = p.hops.length
  length_pos : 1 ≤ p.length
  sources : p.hops.map (·.source) = start :: p.intermediates
  targets : p.hops.map (·.target) = p.intermediates ++ [goal]
  simple : (start :: p.hops.map (·.target)).Nodup
  takes : ∀ h ∈ p.hops, ∃ e ∈ edges, h.Takes e

namespace JoinPath

variable {edges : List Edge} {start goal : String}

/-- A simple chain is a sound trail with hops. -/
theorem isSimpleChain_iff {p : JoinPath} :
    p.IsSimpleChain edges start goal ↔
      p.hops ≠ [] ∧ (⟨goal, p.hops⟩ : Trail).Sound edges start p.length := by
  obtain ⟨hops⟩ := p
  constructor
  · intro h
    refine ⟨List.ne_nil_of_length_pos h.length_pos, rfl, chain_iff.mpr ⟨?_, h.takes⟩, h.simple⟩
    rw [h.targets, ← List.cons_append, ← h.sources]
  · rintro ⟨some_hop, sound⟩
    obtain ⟨linked, takes⟩ := chain_iff.mp sound.chain
    obtain ⟨before, h, rfl⟩ := (List.eq_nil_or_concat' hops).resolve_left some_hop
    have between : intermediates ⟨before ++ [h]⟩ = before.map (·.target) := by
      rw [intermediates, List.dropLast_concat]
    rw [List.map_append, List.map_singleton, ← List.cons_append] at linked
    obtain ⟨sources, last⟩ := List.append_inj' linked rfl
    refine ⟨rfl, ?_, ?_, ?_, sound.simple, takes⟩
    · simp [length]
    · rw [between]
      exact sources.symm
    · rw [between, List.map_append, List.map_singleton, last]

/-! ## One level -/

/-- What arrives on a level has one hop for each step. -/
theorem length_of_mem_arrivals {n : Nat} {p : JoinPath}
    (hp : p ∈ arrivals goal (levelAt edges start goal n)) : p.length = n := by
  obtain ⟨t, ht, _, rfl⟩ := mem_arrivals.mp hp
  exact (sound_of_mem_levelAt ht).length

/-- An edge offers one hop to another table at most. -/
theorem edge_hopsFrom_sublist {table : String} {leaves : Hop → Bool}
    (away : ∀ h, leaves h = true → h.target ≠ table) (e : Edge) :
    (((e.hopsFrom table).filter leaves).map (·.edge)).Sublist [e.id] := by
  by_cases loop : e.source = table ∧ e.target = table
  · have none : (e.hopsFrom table).filter leaves = [] := by
      refine List.filter_eq_nil_iff.mpr fun h hh hl => away h hl ?_
      obtain rfl | rfl : h = e.forward ∨ h = e.backward := by
        simpa [Edge.hopsFrom, loop.1, loop.2] using hh
      · exact loop.2
      · exact loop.1
    rw [none, List.map_nil]
    exact List.nil_sublist _
  · refine (List.filter_sublist.map _).trans ?_
    rw [Edge.hopsFrom]
    split
    · rename_i hs
      rw [if_neg fun ht => loop ⟨hs, ht⟩]
      exact List.Sublist.refl _
    · split
      · exact List.Sublist.refl _
      · exact List.nil_sublist _

/-- Of the hops from a table to other tables no two are of one edge. -/
theorem edges_hopsFrom_sublist {table : String} {leaves : Hop → Bool}
    (away : ∀ h, leaves h = true → h.target ≠ table) (edges : List Edge) :
    (((hopsFrom edges table).filter leaves).map (·.edge)).Sublist (edges.map (·.id)) := by
  induction edges with
  | nil => exact List.Sublist.refl []
  | cons e rest ih =>
    have split : hopsFrom (e :: rest) table = e.hopsFrom table ++ hopsFrom rest table := rfl
    rw [split, List.filter_append, List.map_append]
    exact (edge_hopsFrom_sublist away e).append ih

/-- A sound trail is carried on by different hops. -/
theorem nodup_extensions (ids : (edges.map (·.id)).Nodup) {t : Trail} {n : Nat}
    (sound : t.Sound edges start n) : ((t.extensions edges start).map (·.hops)).Nodup := by
  have here : t.here ∈ start :: t.hops.map (·.target) := by
    rcases sound.chain.eq_or_mem with back | ⟨h, hh, arrived⟩
    · exact back ▸ List.mem_cons_self ..
    · exact List.mem_cons_of_mem _ (List.mem_map.mpr ⟨h, hh, arrived⟩)
  have hops : ((hopsFrom edges t.here).filter fun h =>
      h.target ∉ start :: t.hops.map (·.target)).Nodup := by
    refine List.Nodup.of_map (·.edge) ((edges_hopsFrom_sublist ?_ edges).nodup ids)
    intro h new back
    exact of_decide_eq_true new (back ▸ here)
  rw [Trail.extensions, List.map_map]
  refine hops.map fun h k same => ?_
  simpa using same

/-- The trails of a level are all different. -/
theorem nodup_levelAt (ids : (edges.map (·.id)).Nodup) (n : Nat) :
    ((levelAt edges start goal n).map (·.hops)).Nodup := by
  induction n with
  | zero => exact List.nodup_singleton _
  | succ n ih =>
    have carried_on := carried_sublist goal (levelAt edges start goal n)
    have different := List.pairwise_map.mp ((carried_on.map (·.hops)).nodup ih)
    rw [levelAt_succ, List.map_flatMap, List.nodup_flatMap]
    refine ⟨fun t ht => nodup_extensions ids (sound_of_mem_levelAt (carried_on.mem ht)), ?_⟩
    refine different.imp fun {t u} hne => ?_
    rintro hops ht hu
    obtain ⟨_, hx, rfl⟩ := List.mem_map.mp ht
    obtain ⟨_, hy, same⟩ := List.mem_map.mp hu
    obtain ⟨h, _, _, rfl⟩ := mem_extensions.mp hx
    obtain ⟨k, _, _, rfl⟩ := mem_extensions.mp hy
    exact hne (List.append_inj_left' same rfl).symm

/-! ## The whole list -/

/-- A search lists simple chains within its limit. -/
theorem isSimpleChain_of_mem_search {limit : Nat} {p : JoinPath}
    (hp : p ∈ search edges start goal limit) :
    p.IsSimpleChain edges start goal ∧ p.length ≤ limit := by
  obtain ⟨hne, n, hn, sound⟩ := exists_trail_of_mem_search hp
  obtain rfl : p.length = n := sound.length
  refine ⟨isSimpleChain_iff.mpr ⟨?_, sound⟩, hn⟩
  intro none
  have arrived := sound.chain.eq_or_mem
  simp [none, Ne.symm hne] at arrived

/-- A search lists shorter paths first. -/
theorem pairwise_search (limit : Nat) :
    (search edges start goal limit).Pairwise fun p q => p.length ≤ q.length := by
  by_cases hne : start = goal
  · rw [search, if_pos hne]
    exact List.Pairwise.nil
  · rw [search_eq hne, List.pairwise_flatMap]
    constructor
    · intro i _
      refine List.pairwise_of_forall_mem_list fun p hp q hq => ?_
      rw [length_of_mem_arrivals hp, length_of_mem_arrivals hq]
    · refine List.pairwise_lt_range.imp fun {i j} hij p hp q hq => ?_
      rw [length_of_mem_arrivals hp, length_of_mem_arrivals hq]
      exact Nat.le_of_lt hij

/-- A search lists no path twice when the edges have different ids. -/
theorem nodup_search (ids : (edges.map (·.id)).Nodup) (limit : Nat) :
    (search edges start goal limit).Nodup := by
  by_cases hne : start = goal
  · rw [search, if_pos hne]
    exact List.nodup_nil
  · rw [search_eq hne, List.nodup_flatMap]
    constructor
    · intro i _
      -- The paths that arrive are the hops of some of the trails.
      have hops : (arrivals goal (levelAt edges start goal i)).map (·.hops) =
          ((levelAt edges start goal i).filter (·.here = goal)).map (·.hops) := by
        rw [arrivals, List.map_map]
        rfl
      refine List.Nodup.of_map (·.hops) ?_
      rw [hops]
      exact (List.filter_sublist.map _).nodup (nodup_levelAt ids i)
    · refine List.pairwise_lt_range.imp fun {i j} hij p hp hq => ?_
      have length_p := length_of_mem_arrivals hp
      rw [length_of_mem_arrivals hq] at length_p
      omega

end JoinPath

namespace PathFinder

open JoinPath

/-- Within a limit that is not negative the enumeration succeeds. Every path that it lists is a
simple chain between the two tables of at most so many hops, no path comes before a shorter one,
and none comes twice when no two edges share an id. -/
theorem allPaths_simple_sorted_nodup (f : PathFinder) (start goal : String) {limit : Option Int}
    (hl : 0 ≤ limit.getD f.maxDepth) :
    ∃ paths, f.allPaths start goal limit = .ok paths ∧
      (∀ p ∈ paths, p.IsSimpleChain f.graph.edges start goal ∧
        p.length ≤ limit.getD f.maxDepth) ∧
      paths.Pairwise (fun p q => p.length ≤ q.length) ∧
      ((f.graph.edges.map (·.id)).Nodup → paths.Nodup) := by
  refine ⟨search f.graph.edges start goal (limit.getD f.maxDepth).toNat, ?_, ?_,
    pairwise_search _, fun ids => nodup_search ids _⟩
  · have within : ¬ limit.getD f.maxDepth < 0 := by omega
    simp [allPaths, within]
  · intro p hp
    obtain ⟨chain, within⟩ := isSimpleChain_of_mem_search hp
    exact ⟨chain, by omega⟩

/-- Two edges from `a` to `b`, one against the way from `b` to `c`, one from `a` to `c` and one
from `a` to itself; none of the tables is a node. -/
def crossing : PathFinder where
  graph :=
    { edges := [⟨"1", "a", "b", "x", "y", none⟩, ⟨"2", "a", "b", "z", "y", none⟩,
        ⟨"3", "c", "b", "x", "z", none⟩, ⟨"4", "a", "a", "x", "y", none⟩,
        ⟨"5", "a", "c", "y", "x", none⟩] }
  maxDepth := 5
  bestDepth := 3

theorem allPaths_simple_sorted_nodup_crossing :
    0 ≤ (none : Option Int).getD crossing.maxDepth ∧ (crossing.graph.edges.map (·.id)).Nodup ∧
      ∃ paths, crossing.allPaths "a" "c" none = .ok paths ∧
        (∀ p ∈ paths, p.IsSimpleChain crossing.graph.edges "a" "c" ∧
          p.length ≤ (none : Option Int).getD crossing.maxDepth) ∧
        paths.Pairwise (fun p q => p.length ≤ q.length) ∧ paths.Nodup ∧ paths.length = 2 := by
  have within : 0 ≤ (none : Option Int).getD crossing.maxDepth := by decide
  have ids : (crossing.graph.edges.map (·.id)).Nodup := by decide
  obtain ⟨paths, listed, simple, sorted, nodup⟩ :=
    allPaths_simple_sorted_nodup crossing "a" "c" within
  have two : (crossing.allPaths "a" "c" none).map List.length = .ok 2 := by rfl
  rw [listed] at two
  exact ⟨within, ids, paths, listed, simple, sorted, nodup ids, Except.ok.inj two⟩

end PathFinder

end QueryWorkbench
