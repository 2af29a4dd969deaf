/-
QueryWorkbench.Proofs.Query.JoinGroup — grouping is a stable partition of the joins.

The groups come in the order in which their tables first occur, and each of them holds the joins of
its tables in their order, the first of which leads it. Nothing else is to be known of the groups:
how joins of different tables interleave does not matter, and grouping the joins of the groups again
changes nothing (`ofJoins_stable_partition`).

## How the proof goes

Groups are made by inserting one join after the other. The first join of a list opens the first
group, which takes every later join of the same two tables; the other joins are grouped as if they
stood alone (`ofJoins_cons`). This equation is the only one that looks at insertions. The recursion
along it goes to the joins of other tables, which `apart_induction` turns into an induction
principle, and along this the order of the groups (`map_pair_ofJoins`) and their members
(`members_of_mem_ofJoins`) follow. The list of groups is a function of these two
(`map_members_ofJoins`), as a group is known by its members (`members_injective`); what does not
depend on the interleaving is then read off (`ofJoins_eq_ofJoins`).

There are no hypotheses on the joins. Tables are a pair in the order in which the join has them, so
joins in opposite directions are in different groups, as in `bothWays`.
-/
import Mathlib.Data.List.Basic
import QueryWorkbench.Query.Fold
import QueryWorkbench.Query.JoinGroup

namespace QueryWorkbench.JoinGroup

variable {Q P : Type}

/-! ## One group after the other -/

/-- Adds joins to groups, one after the other. -/
def insertAll (groups : List (JoinGroup Q)) (joins : List (Join Q)) : List (JoinGroup Q) :=
  joins.foldl (fun acc j => insert j acc) groups

theorem ofJoins_append (joins more : List (Join Q)) :
    ofJoins (joins ++ more) = insertAll (ofJoins joins) more :=
  List.foldl_append

/-- The first group takes the joins of its tables, and the others are left to the groups behind. -/
theorem insertAll_cons (g : JoinGroup Q) (groups : List (JoinGroup Q)) (joins : List (Join Q)) :
    insertAll (g :: groups) joins =
      ⟨g.first, g.others ++ joins.filter fun j => j.pair = g.first.pair⟩ ::
        insertAll groups (joins.filter fun j => j.pair ≠ g.first.pair) := by
  induction joins generalizing g groups with
  | nil => simp [insertAll]
  | cons j rest ih =>
    have step : insertAll (g :: groups) (j :: rest) = insertAll (insert j (g :: groups)) rest := rfl
    rw [step, insert]
    by_cases same : j.pair = g.first.pair
    · rw [if_pos same.symm, ih]
      simp [same]
    · rw [if_neg fun h => same h.symm, ih]
      simp [same, insertAll]

/-- The first join opens the first group. The joins of other tables are grouped by themselves. -/
theorem ofJoins_cons (j : Join Q) (rest : List (Join Q)) :
    ofJoins (j :: rest) =
      ⟨j, rest.filter fun k => k.pair = j.pair⟩ :: ofJoins (rest.filter fun k => k.pair ≠ j.pair) :=
  insertAll_cons ⟨j, []⟩ [] rest

/-- What holds of no joins, and of a list as soon as it holds of the joins of other tables than the
first one's, holds of all joins. -/
@[elab_as_elim]
theorem apart_induction {motive : List (Join Q) → Prop} (nil : motive [])
    (cons : ∀ j rest, motive (rest.filter fun k => k.pair ≠ j.pair) → motive (j :: rest)) :
    ∀ joins, motive joins
  | [] => nil
  | j :: rest => cons j rest (apart_induction nil cons _)
termination_by joins => joins.length
decreasing_by exact Nat.lt_succ_of_le (List.length_filter_le ..)

/-! ## Members -/

/-- Every join is a member of a group, and every member is one of the joins. -/
theorem exists_mem_ofJoins {joins : List (Join Q)} {j : Join Q} :
    (∃ g ∈ ofJoins joins, j ∈ g.members) ↔ j ∈ joins := by
  induction joins using apart_induction with
  | nil => simp [ofJoins]
  | cons first rest ih =>
    have here : j ∈ members ⟨first, rest.filter fun k => k.pair = first.pair⟩ ↔
        j = first ∨ j ∈ rest ∧ j.pair = first.pair := by
      rw [members, List.mem_cons, List.mem_filter, decide_eq_true_eq]
    rw [ofJoins_cons, List.exists_mem_cons_iff, ih, here, List.mem_filter, decide_eq_true_eq,
      List.mem_cons, or_assoc, ← and_or_left, and_iff_left (em _)]

/-- The groups of the joins of other tables than a join's have no members of its tables. -/
theorem pair_ne_of_mem_members {j k : Join Q} {rest : List (Join Q)} {g : JoinGroup Q}
    (hg : g ∈ ofJoins (rest.filter fun k => k.pair ≠ j.pair)) (hk : k ∈ g.members) :
    k.pair ≠ j.pair :=
  of_decide_eq_true (List.mem_filter.mp (exists_mem_ofJoins.mp ⟨g, hg, hk⟩)).2

/-- The members of a group are the joins of its tables, in their order. -/
theorem members_of_mem_ofJoins {joins : List (Join Q)} {g : JoinGroup Q} (hg : g ∈ ofJoins joins) :
    g.members = joins.filter fun j => j.pair = g.first.pair := by
  induction joins using apart_induction with
  | nil => cases hg
  | cons first rest ih =>
    rw [ofJoins_cons] at hg
    rcases List.mem_cons.mp hg with rfl | hg
    · simp [members]
    · have other : g.first.pair ≠ first.pair := pair_ne_of_mem_members hg (List.mem_cons_self ..)
      rw [ih hg, List.filter_filter, List.filter_cons_of_neg (by simpa using other.symm)]
      refine List.filter_congr fun k _ => ?_
      by_cases same : k.pair = g.first.pair <;> simp [same, other]

/-- All members of a group relate the same two tables. -/
theorem pair_of_mem_members {joins : List (Join Q)} {g : JoinGroup Q} (hg : g ∈ ofJoins joins)
    {j : Join Q} (hj : j ∈ g.members) : j.pair = g.first.pair := by
  rw [members_of_mem_ofJoins hg] at hj
  exact of_decide_eq_true (List.mem_filter.mp hj).2

/-- The members of all groups are the joins, each as often as it is there. -/
theorem flatMap_members_perm (joins : List (Join Q)) :
    ((ofJoins joins).flatMap members).Perm joins := by
  induction joins using apart_induction with
  | nil => exact .nil
  | cons first rest ih =>
    rw [ofJoins_cons, List.flatMap_cons, members, List.cons_append]
    refine .cons first ((ih.append_left _).trans ?_)
    have split := List.filter_append_perm (fun k : Join Q => decide (k.pair = first.pair)) rest
    simpa using split

/-! ## Tables -/

/-- The groups stand in the order in which their tables first occur. -/
theorem map_pair_ofJoins (joins : List (Join Q)) :
    ((ofJoins joins).map fun g => g.first.pair) = (joins.map Join.pair).eraseDups := by
  induction joins using apart_induction with
  | nil => rfl
  | cons first rest ih =>
    rw [ofJoins_cons, List.map_cons, ih, List.map_cons, List.eraseDups_cons, List.filter_map]
    congr 3
    refine List.filter_congr fun k _ => ?_
    by_cases same : k.pair = first.pair <;> simp [same]

/-- No two groups relate the same two tables. -/
theorem nodup_pair_ofJoins (joins : List (Join Q)) :
    ((ofJoins joins).map fun g => g.first.pair).Nodup := by
  induction joins using apart_induction with
  | nil => exact List.nodup_nil
  | cons first rest ih =>
    rw [ofJoins_cons, List.map_cons, List.nodup_cons]
    refine ⟨fun again => ?_, ih⟩
    obtain ⟨g, hg, same⟩ := List.mem_map.mp again
    exact pair_ne_of_mem_members hg (List.mem_cons_self ..) same

/-- Where no two joins relate the same tables every join is a group of its own. -/
theorem ofJoins_of_nodup {joins : List (Join Q)} (nodup : (joins.map Join.pair).Nodup) :
    ofJoins joins = joins.map fun j => ⟨j, []⟩ := by
  induction joins with
  | nil => rfl
  | cons first rest ih =>
    rw [List.map_cons, List.nodup_cons] at nodup
    have other : ∀ k ∈ rest, k.pair ≠ first.pair := fun k hk same =>
      nodup.1 (same ▸ List.mem_map_of_mem hk)
    rw [ofJoins_cons, List.filter_eq_nil_iff.mpr (by simpa using other),
      List.filter_eq_self.mpr (by simpa using other), ih nodup.2, List.map_cons]

/-! ## Nested queries -/

/-- Changes the nested queries of all members. -/
def map (f : P → Q) (g : JoinGroup P) : JoinGroup Q :=
  ⟨g.first.map f, g.others.map (Join.map f)⟩

/-- Grouping does not look at nested queries. -/
theorem ofJoins_map (f : P → Q) (joins : List (Join P)) :
    ofJoins (joins.map (Join.map f)) = (ofJoins joins).map (map f) := by
  induction joins using apart_induction with
  | nil => rfl
  | cons first rest ih =>
    rw [List.map_cons, ofJoins_cons, List.filter_map, List.filter_map, ofJoins_cons, List.map_cons]
    exact congrArg (_ :: ·) ih

/-! ## What the groups depend on -/

theorem map_members_ofJoins (joins : List (Join Q)) :
    (ofJoins joins).map members =
      (joins.map Join.pair).eraseDups.map fun p => joins.filter fun j => j.pair = p := by
  rw [← map_pair_ofJoins, List.map_map]
  exact List.map_congr_left fun g hg => members_of_mem_ofJoins hg

theorem members_injective : Function.Injective (members (Q := Q)) := by
  rintro ⟨first, others⟩ ⟨first', others'⟩ same
  obtain ⟨rfl, rfl⟩ := List.cons.inj same
  rfl

/-- Lists in which the same tables first occur in the same order, and which have the same joins of
any two tables in the same order, have the same groups. -/
theorem ofJoins_eq_ofJoins {joins others : List (Join Q)}
    (first : (others.map Join.pair).eraseDups = (joins.map Join.pair).eraseDups)
    (alike : ∀ p, (others.filter fun j => j.pair = p) = joins.filter fun j => j.pair = p) :
    ofJoins others = ofJoins joins := by
  refine members_injective.list_map ?_
  rw [map_members_ofJoins, map_members_ofJoins, first]
  exact List.map_congr_left fun p _ => alike p

/-- Joins of the first one's tables and then joins of other tables make the first group and the
groups of the others. -/
theorem ofJoins_cons_append {j : Join Q} {same other : List (Join Q)}
    (alike : ∀ k ∈ same, k.pair = j.pair) (apart : ∀ k ∈ other, k.pair ≠ j.pair) :
    ofJoins (j :: (same ++ other)) = ⟨j, same⟩ :: ofJoins other := by
  have kept : (same ++ other).filter (fun k => k.pair = j.pair) = same := by
    rw [List.filter_append, List.filter_eq_self.mpr (by simpa using alike),
      List.filter_eq_nil_iff.mpr (by simpa using apart), List.append_nil]
  have left : (same ++ other).filter (fun k => k.pair ≠ j.pair) = other := by
    rw [List.filter_append, List.filter_eq_nil_iff.mpr (by simpa using alike),
      List.filter_eq_self.mpr (by simpa using apart), List.nil_append]
  rw [ofJoins_cons, kept, left]

/-- Members that stand one group after the other are grouped as they were. -/
theorem ofJoins_flatMap_members (joins : List (Join Q)) :
    ofJoins ((ofJoins joins).flatMap members) = ofJoins joins := by
  induction joins using apart_induction with
  | nil => rfl
  | cons first rest ih =>
    rw [ofJoins_cons, List.flatMap_cons, members, List.cons_append, ofJoins_cons_append, ih]
    · exact fun k hk => of_decide_eq_true (List.mem_filter.mp hk).2
    · intro k hk
      obtain ⟨g, hg, member⟩ := List.mem_flatMap.mp hk
      exact pair_ne_of_mem_members hg member

/-! ## The partition -/

/-- Grouping is a stable partition. No two groups relate the same two tables, and the groups come in
the order in which their tables first occur; the members of a group are the joins of its tables in
their order, and it is named after the first of these. So the groups depend only on that order and on
the joins of any two tables, and the members grouped once more are grouped the same way. -/
theorem ofJoins_stable_partition (joins : List (Join Q)) :
    (((ofJoins joins).map fun g => g.first.pair).Nodup ∧
      ((ofJoins joins).map fun g => g.first.pair) = (joins.map Join.pair).eraseDups) ∧
    (∀ g ∈ ofJoins joins, g.members = (joins.filter fun j => j.pair = g.first.pair) ∧
      (joins.find? fun j => j.pair = g.first.pair) = some g.first) ∧
    ((ofJoins joins).flatMap members).Perm joins ∧
    (∀ others : List (Join Q),
      (others.map Join.pair).eraseDups = (joins.map Join.pair).eraseDups →
      (∀ p, (others.filter fun j => j.pair = p) = joins.filter fun j => j.pair = p) →
      ofJoins others = ofJoins joins) ∧
    ofJoins ((ofJoins joins).flatMap members) = ofJoins joins := by
  refine ⟨⟨nodup_pair_ofJoins joins, map_pair_ofJoins joins⟩, fun g hg => ?_,
    flatMap_members_perm joins, fun _ => ofJoins_eq_ofJoins, ofJoins_flatMap_members joins⟩
  have kept := members_of_mem_ofJoins hg
  refine ⟨kept, ?_⟩
  rw [← List.head?_filter, ← kept, members, List.head?_cons]

/-- A join of two tables on one column of each. -/
def onColumns (source sourceColumn target targetColumn : String) : Join Query :=
  { sourceTable := source, sourceAlias := source, sourceColumn := sourceColumn,
    targetTable := target, targetAlias := target, targetColumn := targetColumn }

/-- Orders joined with their items by two columns, one of them given twice, and the other way
around. -/
def bothWays : List (Join Query) :=
  [onColumns "orders" "id" "items" "order_id", onColumns "orders" "shop" "items" "shop",
    onColumns "orders" "id" "items" "order_id", onColumns "items" "order_id" "orders" "id"]

/-- The same joins with the turned one between the others. -/
def bothWaysMixed : List (Join Query) :=
  [onColumns "orders" "id" "items" "order_id", onColumns "items" "order_id" "orders" "id",
    onColumns "orders" "shop" "items" "shop", onColumns "orders" "id" "items" "order_id"]

theorem ofJoins_stable_partition_bothWays :
    (∃ g ∈ ofJoins bothWays, g.first.pair = ("orders", "items") ∧
      g.members = bothWays.filter fun j => j.pair = ("orders", "items")) ∧
    (bothWaysMixed.map Join.pair).eraseDups = (bothWays.map Join.pair).eraseDups ∧
    (∀ p, (bothWaysMixed.filter fun j => j.pair = p) = bothWays.filter fun j => j.pair = p) ∧
    ofJoins bothWaysMixed = ofJoins bothWays := by
  have first : (bothWaysMixed.map Join.pair).eraseDups = (bothWays.map Join.pair).eraseDups := by
    decide
  have alike : ∀ p, (bothWaysMixed.filter fun j => j.pair = p) =
      bothWays.filter fun j => j.pair = p := by
    intro p
    by_cases forth : ("orders", "items") = p
    · subst forth
      rfl
    · by_cases back : ("items", "orders") = p
      · subst back
        rfl
      · simp [bothWaysMixed, bothWays, onColumns, Join.pair, forth, back]
  have partition := ofJoins_stable_partition bothWays
  exact ⟨⟨_, List.mem_cons_self .., rfl, (partition.2.1 _ (List.mem_cons_self ..)).1⟩, first, alike,
    partition.2.2.2.1 bothWaysMixed first alike⟩

end QueryWorkbench.JoinGroup
