/-
QueryWorkbench.Proofs.JoinPath.Arrival — which simple chains the enumeration of paths finds.

Of the trails of a level at one table the search carries only the first on, so that a simple chain
can be lost: another one of as many hops that has come to the same table before it takes its place,
and need not lead where it leads (`not_mem_allPaths_diamond`). A simple chain is found exactly when
it comes first at every table before the goal (`mem_allPaths_iff`).

## How the proof goes

`Arrives` says which trails get to a table, by the order of the hops alone: trails of one length are
compared by the places of their hops among the hops of all edges, place by place. The levels of a
search hold exactly the trails that arrive (`mem_levelAt_iff`), because a level is in that order, as
far as the first occurrences of its trails go (`places_lt_of_idxOf_lt`). Both are inductions on the
level. `Unpreceded` then says the same of the hops of a chain, without trails and levels
(`unpreceded_of_arrives`, `arrives_of_unpreceded`).

## The side conditions

* The two tables are different. From a table to itself there is nothing to search.
* The limit is not negative, which the search refuses.

The last part of `mem_allPaths_iff` asks for more and says less: a chain to whose tables no other
route of as many hops leads is found.
-/
import Mathlib.Data.List.Basic
import Mathlib.Data.List.Lex
import QueryWorkbench.Proofs.JoinPath.Enumeration

namespace QueryWorkbench

/-! ## First occurrences -/

section FirstOccurrence

variable {α β : Type} [DecidableEq α] [DecidableEq β]

/-- A filter keeps the order of the first occurrences. -/
theorem idxOf_filter_lt_iff {p : α → Bool} {x y : α} (hx : p x = true) (hy : p y = true)
    (l : List α) : (l.filter p).idxOf x < (l.filter p).idxOf y ↔ l.idxOf x < l.idxOf y := by
  induction l with
  | nil => rfl
  | cons a rest ih =>
    by_cases ha : p a = true
    · rw [List.filter_cons_of_pos ha]
      grind
    · have other_x : a ≠ x := fun same => ha (same ▸ hx)
      have other_y : a ≠ y := fun same => ha (same ▸ hy)
      rw [List.filter_cons_of_neg ha, List.idxOf_cons_ne _ other_x, List.idxOf_cons_ne _ other_y,
        Nat.succ_lt_succ_iff]
      exact ih

theorem idxOf_map {f : α → β} (inj : Function.Injective f) (x : α) (l : List α) :
    (l.map f).idxOf (f x) = l.idxOf x := by
  induction l with
  | nil => rfl
  | cons a rest ih =>
    by_cases same : a = x
    · subst same
      rw [List.map_cons, List.idxOf_cons_self, List.idxOf_cons_self]
    · rw [List.map_cons, List.idxOf_cons_ne _ fun h => same (inj h), List.idxOf_cons_ne _ same, ih]

/-- Where one element comes before another in a list that is put together from parts, it does so
within a part, or its part comes before that of the other. -/
theorem exists_of_idxOf_flatMap_lt {f : α → List β} {u v : β} {l : List α}
    (hv : v ∈ l.flatMap f) (before : (l.flatMap f).idxOf u < (l.flatMap f).idxOf v) :
    (∃ x ∈ l, u ∈ f x ∧ v ∈ f x ∧ (f x).idxOf u < (f x).idxOf v) ∨
      ∃ x ∈ l, ∃ y ∈ l, u ∈ f x ∧ v ∈ f y ∧ l.idxOf x < l.idxOf y := by
  induction l with
  | nil => simp at hv
  | cons a rest ih =>
    rw [List.flatMap_cons] at hv before
    by_cases hva : v ∈ f a
    · -- Before the first occurrence of `v` there is only the part of `a`.
      rw [List.idxOf_append_of_mem hva] at before
      have hua : u ∈ f a := by
        by_contra missing
        rw [List.idxOf_append_of_notMem missing] at before
        have := List.idxOf_lt_length_of_mem hva
        omega
      rw [List.idxOf_append_of_mem hua] at before
      exact Or.inl ⟨a, List.mem_cons_self .., hua, hva, before⟩
    · have hv_rest : v ∈ rest.flatMap f := (List.mem_append.mp hv).resolve_left hva
      by_cases hua : u ∈ f a
      · obtain ⟨y, hy, hvy⟩ := List.mem_flatMap.mp hv_rest
        refine Or.inr ⟨a, List.mem_cons_self .., y, List.mem_cons_of_mem _ hy, hua, hvy, ?_⟩
        have other : a ≠ y := fun same => hva (same ▸ hvy)
        rw [List.idxOf_cons_self, List.idxOf_cons_ne _ other]
        exact Nat.succ_pos _
      · rw [List.idxOf_append_of_notMem hua, List.idxOf_append_of_notMem hva] at before
        rcases ih hv_rest (by omega) with ⟨x, hx, found⟩ | ⟨x, hx, y, hy, hux, hvy, lt⟩
        · exact Or.inl ⟨x, List.mem_cons_of_mem _ hx, found⟩
        · refine Or.inr ⟨x, List.mem_cons_of_mem _ hx, y, List.mem_cons_of_mem _ hy, hux, hvy, ?_⟩
          have other_x : a ≠ x := fun same => hua (same ▸ hux)
          have other_y : a ≠ y := fun same => hva (same ▸ hvy)
          rw [List.idxOf_cons_ne _ other_x, List.idxOf_cons_ne _ other_y]
          omega

/-- What holds of all pairs in the order of a list holds of two elements in the order of their
first occurrences. -/
theorem of_pairwise_of_idxOf_lt {R : α → α → Prop} {l : List α} (sorted : l.Pairwise R) {x y : α}
    (hy : y ∈ l) (before : l.idxOf x < l.idxOf y) : R x y := by
  have hj := List.idxOf_lt_length_of_mem hy
  have related := List.pairwise_iff_getElem.mp sorted _ _ (before.trans hj) hj before
  rwa [List.getElem_idxOf, List.getElem_idxOf] at related

end FirstOccurrence

/-- Of two lists of one length the smaller one stays the smaller whatever follows. -/
theorem append_lt_append_of_length_eq {a b : List Nat} (same : a.length = b.length) (h : a < b)
    (c d : List Nat) : a ++ c < b ++ d := by
  induction a generalizing b with
  | nil =>
    rw [List.length_nil, eq_comm, List.length_eq_zero_iff] at same
    exact absurd (same ▸ h) (lt_irrefl _)
  | cons x a ih =>
    cases b with
    | nil => cases same
    | cons y b =>
      rw [List.cons_append, List.cons_append, List.cons_lt_cons_iff]
      rcases List.cons_lt_cons_iff.mp h with lt | ⟨rfl, lt⟩
      · exact Or.inl lt
      · exact Or.inr ⟨rfl, ih (Nat.succ.inj same) lt⟩

namespace JoinPath

variable {edges : List Edge} {start goal : String}

/-! ## The order of trails -/

/-- The hops of all edges in order, each edge as it is written and then turned round. -/
def allHops (edges : List Edge) : List Hop := edges.flatMap fun e => [e.forward, e.backward]

/-- The place of each hop among those of all edges. -/
def places (edges : List Edge) (hops : List Hop) : List Nat := hops.map (allHops edges).idxOf

theorem hopsFrom_eq_filter (edges : List Edge) (table : String) :
    hopsFrom edges table = (allHops edges).filter (·.source = table) := by
  induction edges with
  | nil => rfl
  | cons e rest ih =>
    have first : e.hopsFrom table = [e.forward, e.backward].filter (·.source = table) := by
      by_cases hs : e.source = table <;> by_cases ht : e.target = table <;>
        simp [Edge.hopsFrom, Edge.forward, Edge.backward, hs, ht]
    rw [hopsFrom, List.flatMap_cons, allHops, List.flatMap_cons, List.filter_append, first]
    exact congrArg _ ih

/-- Of the trails that carry one trail on, the one by the earlier hop comes first. -/
theorem places_lt_of_extensions {t u v : Trail} (hu : u ∈ t.extensions edges start)
    (hv : v ∈ t.extensions edges start)
    (before : (t.extensions edges start).idxOf u < (t.extensions edges start).idxOf v) :
    places edges u.hops < places edges v.hops := by
  obtain ⟨h, hh, new_h, rfl⟩ := mem_extensions.mp hu
  obtain ⟨k, hk, new_k, rfl⟩ := mem_extensions.mp hv
  have inj : Function.Injective fun h : Hop => (⟨h.target, t.hops ++ [h]⟩ : Trail) := by
    intro h k same
    simpa using (Trail.mk.inj same).2
  have source_h := (mem_hopsFrom_iff_takes.mp hh).1
  have source_k := (mem_hopsFrom_iff_takes.mp hk).1
  have earlier : (allHops edges).idxOf h < (allHops edges).idxOf k := by
    rw [Trail.extensions, idxOf_map inj h, idxOf_map inj k] at before
    have from_here :=
      (idxOf_filter_lt_iff (by simpa using new_h) (by simpa using new_k) _).mp before
    rw [hopsFrom_eq_filter] at from_here
    exact (idxOf_filter_lt_iff (by simpa using source_h) (by simpa using source_k) _).mp from_here
  rw [places, places, List.map_append, List.map_append]
  refine List.append_left_lt ?_
  exact List.cons_lt_cons_iff.mpr (Or.inl earlier)

theorem here_not_mem_of_mem_firstAtEach {seen : List String} {level : List Trail} {t : Trail}
    (ht : t ∈ firstAtEach seen level) : t.here ∉ seen := by
  induction level generalizing seen with
  | nil => cases ht
  | cons u rest ih =>
    rw [firstAtEach] at ht
    split at ht
    · exact ih ht
    · rename_i unseen
      rcases List.mem_cons.mp ht with rfl | ht
      · exact unseen
      · exact fun passed => ih ht (List.mem_cons_of_mem _ passed)

/-- The trails that are carried on come in the order of their first occurrences. -/
theorem pairwise_firstAtEach (seen : List String) (level : List Trail) :
    (firstAtEach seen level).Pairwise fun s t => level.idxOf s < level.idxOf t := by
  induction level generalizing seen with
  | nil => exact List.Pairwise.nil
  | cons u rest ih =>
    -- What is carried on from the rest is not `u`, whose table has been seen by then.
    have other : ∀ {seen : List String}, u.here ∈ seen → ∀ t ∈ firstAtEach seen rest, u ≠ t := by
      rintro seen passed t ht rfl
      exact here_not_mem_of_mem_firstAtEach ht passed
    have later : ∀ {seen : List String}, u.here ∈ seen → (firstAtEach seen rest).Pairwise
        fun s t => (u :: rest).idxOf s < (u :: rest).idxOf t := by
      intro seen passed
      refine (ih seen).imp_of_mem fun {s t} hs ht before => ?_
      rw [List.idxOf_cons_ne _ (other passed s hs), List.idxOf_cons_ne _ (other passed t ht)]
      exact Nat.succ_lt_succ before
    rw [firstAtEach]
    split
    · exact later ‹_›
    · refine List.pairwise_cons.mpr ⟨fun t ht => ?_, later (List.mem_cons_self ..)⟩
      rw [List.idxOf_cons_self, List.idxOf_cons_ne _ (other (List.mem_cons_self ..) t ht)]
      exact Nat.succ_pos _

/-- A trail that is carried on occurs before all others at its table. -/
theorem idxOf_le_of_mem_firstAtEach {seen : List String} {level : List Trail} {s t : Trail}
    (ht : t ∈ firstAtEach seen level) (same : s.here = t.here) :
    level.idxOf t ≤ level.idxOf s := by
  induction level generalizing seen with
  | nil => cases ht
  | cons u rest ih =>
    have unseen := here_not_mem_of_mem_firstAtEach ht
    rw [firstAtEach] at ht
    split at ht
    · rename_i passed
      have other : ∀ {v : Trail}, v.here = t.here → u ≠ v := by
        rintro v at_t rfl
        exact unseen (at_t ▸ passed)
      rw [List.idxOf_cons_ne _ (other rfl), List.idxOf_cons_ne _ (other same)]
      exact Nat.succ_le_succ (ih ht)
    · rcases List.mem_cons.mp ht with rfl | ht
      · rw [List.idxOf_cons_self]
        exact Nat.zero_le _
      · have other : ∀ {v : Trail}, v.here = t.here → u ≠ v := by
          rintro v at_t rfl
          exact here_not_mem_of_mem_firstAtEach ht (at_t ▸ List.mem_cons_self ..)
        rw [List.idxOf_cons_ne _ (other rfl), List.idxOf_cons_ne _ (other same)]
        exact Nat.succ_le_succ (ih ht)

theorem mem_open {level : List Trail} {t : Trail} :
    t ∈ level.filter (·.here ≠ goal) ↔ t ∈ level ∧ t.here ≠ goal := by
  rw [List.mem_filter, decide_eq_true_eq]

theorem idxOf_open_lt_iff {level : List Trail} {s t : Trail} (hs : s.here ≠ goal)
    (ht : t.here ≠ goal) :
    (level.filter (·.here ≠ goal)).idxOf s < (level.filter (·.here ≠ goal)).idxOf t ↔
      level.idxOf s < level.idxOf t :=
  idxOf_filter_lt_iff (by simpa using hs) (by simpa using ht) level

/-- The levels of a search are in the order of the places of the hops. -/
theorem places_lt_of_idxOf_lt {n : Nat} : ∀ {s t : Trail}, t ∈ levelAt edges start goal n →
    (levelAt edges start goal n).idxOf s < (levelAt edges start goal n).idxOf t →
    places edges s.hops < places edges t.hops := by
  induction n with
  | zero =>
    intro s t ht before
    obtain rfl : t = ⟨start, []⟩ := List.mem_singleton.mp ht
    rw [levelAt, List.idxOf_cons_self] at before
    exact absurd before (Nat.not_lt_zero _)
  | succ n ih =>
    intro u v hv before
    have in_order : (carried goal (levelAt edges start goal n)).Pairwise
        fun s t => places edges s.hops < places edges t.hops := by
      refine (pairwise_firstAtEach [] _).imp_of_mem fun {s t} hs ht before => ?_
      have open_s := mem_open.mp (mem_of_mem_firstAtEach hs)
      have open_t := mem_open.mp (mem_of_mem_firstAtEach ht)
      exact ih open_t.1 ((idxOf_open_lt_iff open_s.2 open_t.2).mp before)
    rw [levelAt_succ] at hv before
    rcases exists_of_idxOf_flatMap_lt hv before with
      ⟨t, _, hu, hv, before⟩ | ⟨s, hs, t, ht, hu, hv, before⟩
    · exact places_lt_of_extensions hu hv before
    · have lt := of_pairwise_of_idxOf_lt in_order ht before
      obtain ⟨h, _, _, rfl⟩ := mem_extensions.mp hu
      obtain ⟨k, _, _, rfl⟩ := mem_extensions.mp hv
      have length_s := (sound_of_mem_levelAt ((carried_sublist _ _).mem hs)).length
      have length_t := (sound_of_mem_levelAt ((carried_sublist _ _).mem ht)).length
      rw [places, places, List.map_append, List.map_append]
      refine append_lt_append_of_length_eq ?_ lt _ _
      rw [places, places, List.length_map, List.length_map, length_s, length_t]

/-! ## The trails that arrive -/

/-- The first of some trails at its table, in the order of the places of the hops. -/
def IsFirst (edges : List Edge) (among : Trail → Prop) (t : Trail) : Prop :=
  among t ∧ ∀ s, among s → s.here = t.here → places edges t.hops ≤ places edges s.hops

/-- The trails that get to a table by a number of hops: by none the one that stays at the start,
and by one hop more those that carry on a trail which is not at the goal and is the first at its
table. -/
def Arrives (edges : List Edge) (start goal : String) : Nat → Trail → Prop
  | 0, t => t = ⟨start, []⟩
  | n + 1, u => ∃ t, t.here ≠ goal ∧ IsFirst edges (Arrives edges start goal n) t ∧
      u ∈ t.extensions edges start

/-- A level carries on the first trail at each table but the goal. -/
theorem mem_carried_iff {n : Nat} {t : Trail} :
    t ∈ carried goal (levelAt edges start goal n) ↔
      t.here ≠ goal ∧ IsFirst edges (· ∈ levelAt edges start goal n) t := by
  have first : ∀ {t : Trail}, t ∈ carried goal (levelAt edges start goal n) →
      ∀ s ∈ levelAt edges start goal n, s.here = t.here → s ≠ t →
      places edges t.hops < places edges s.hops := by
    intro t ht s hs same other
    have open_t := (mem_open.mp (mem_of_mem_firstAtEach ht)).2
    have open_s : s.here ≠ goal := by rwa [same]
    have le := idxOf_le_of_mem_firstAtEach ht same
    have ne := (List.idxOf_inj (mem_open.mpr ⟨hs, open_s⟩)).not.mpr other
    exact places_lt_of_idxOf_lt hs
      ((idxOf_open_lt_iff open_t open_s).mp (lt_of_le_of_ne le (Ne.symm ne)))
  constructor
  · intro ht
    obtain ⟨there, away⟩ := mem_open.mp (mem_of_mem_firstAtEach ht)
    refine ⟨away, there, fun s hs same => ?_⟩
    by_cases other : s = t
    · rw [other]
    · exact (first ht s hs same other).le
  · rintro ⟨away, ht, least⟩
    obtain ⟨u, hu, same⟩ :=
      exists_mem_firstAtEach (mem_open.mpr ⟨ht, away⟩) List.not_mem_nil
    by_cases other : t = u
    · rwa [other]
    · have before := first hu t ht same.symm other
      exact absurd before (least u ((carried_sublist _ _).mem hu) same).not_gt

/-- The levels of a search are made of the trails that arrive. -/
theorem mem_levelAt_iff {n : Nat} :
    ∀ {t : Trail}, t ∈ levelAt edges start goal n ↔ Arrives edges start goal n t := by
  induction n with
  | zero => exact List.mem_singleton
  | succ n ih =>
    intro u
    have same : (· ∈ levelAt edges start goal n) = Arrives edges start goal n :=
      funext fun t => propext ih
    rw [levelAt_succ, List.mem_flatMap, Arrives]
    simp only [mem_carried_iff, same, and_assoc]

/-! ## The chains that are found -/

/-- Hops that no trail is before: at each table that one of them starts from, those taken so far
come first among the trails that get there by as many hops. -/
def Unpreceded (edges : List Edge) (start goal : String) (hops : List Hop) : Prop :=
  ∀ taken h, taken ++ [h] <+: hops → ∀ s, Arrives edges start goal taken.length s →
    s.here = h.source → places edges taken ≤ places edges s.hops

theorem Unpreceded.of_prefix {hops more : List Hop} (h : Unpreceded edges start goal more)
    (front : hops <+: more) : Unpreceded edges start goal hops :=
  fun taken k short => h taken k (short.trans front)

theorem sound_of_arrives {n : Nat} {t : Trail} (ht : Arrives edges start goal n t) :
    t.Sound edges start n :=
  sound_of_mem_levelAt (mem_levelAt_iff.mpr ht)

/-- No trail is before one that arrives. -/
theorem unpreceded_of_arrives {n : Nat} :
    ∀ {t : Trail}, Arrives edges start goal n t → Unpreceded edges start goal t.hops := by
  induction n with
  | zero =>
    rintro t rfl taken h short
    exact absurd (List.prefix_nil.mp short) (by simp)
  | succ n ih =>
    rintro u ⟨t, _, first, hu⟩ taken h short
    obtain ⟨k, hk, _, rfl⟩ := mem_extensions.mp hu
    rcases List.prefix_concat_iff.mp short with whole | short
    · obtain ⟨rfl, last⟩ := List.append_inj' whole rfl
      obtain rfl : h = k := by simpa using last
      rw [(sound_of_arrives first.1).length, (mem_hopsFrom_iff_takes.mp hk).1]
      exact first.2
    · exact ih first.1 taken h short

/-- A trail that no other is before arrives, if it does not pass the goal. -/
theorem arrives_of_unpreceded {hops : List Hop} {b : String} (c : Chain edges start hops b)
    (simple : (start :: hops.map (·.target)).Nodup) (away : ∀ h ∈ hops, h.source ≠ goal)
    (free : Unpreceded edges start goal hops) :
    Arrives edges start goal hops.length ⟨b, hops⟩ := by
  induction c with
  | nil => rfl
  | @snoc hops b h c hh ih =>
    rw [List.map_append, ← List.cons_append, List.nodup_append] at simple
    obtain ⟨simple, _, new⟩ := simple
    have before := ih simple (fun k hk => away k (List.mem_append_left _ hk))
      (free.of_prefix (List.prefix_append ..))
    have source_eq := (mem_hopsFrom_iff_takes.mp hh).1
    rw [List.length_append, List.length_singleton]
    refine ⟨⟨b, hops⟩, ?_, ⟨before, ?_⟩, mem_extensions.mpr ⟨h, hh, ?_, rfl⟩⟩
    · exact source_eq ▸ away h (List.mem_append_right _ (List.mem_singleton_self h))
    · intro s hs same
      exact free hops h (List.prefix_refl _) s hs (same.trans source_eq.symm)
    · exact fun passed => new _ passed _ (List.mem_singleton_self _) rfl

/-- A simple chain does not leave the goal. -/
theorem IsSimpleChain.source_ne_goal {p : JoinPath} (chain : p.IsSimpleChain edges start goal)
    {h : Hop} (hh : h ∈ p.hops) : h.source ≠ goal := by
  have passed : h.source ∈ start :: p.intermediates := by
    rw [← chain.sources]
    exact List.mem_map_of_mem hh
  have simple := chain.simple
  rw [chain.targets, ← List.cons_append, List.nodup_append] at simple
  exact simple.2.2 _ passed _ (List.mem_singleton_self _)

/-- A search finds the simple chains within its limit that no other trail is before. -/
theorem mem_search_iff (hne : start ≠ goal) {limit : Nat} {p : JoinPath} :
    p ∈ search edges start goal limit ↔
      p.IsSimpleChain edges start goal ∧ p.length ≤ limit ∧
        Unpreceded edges start goal p.hops := by
  constructor
  · intro hp
    obtain ⟨chain, within⟩ := isSimpleChain_of_mem_search hp
    refine ⟨chain, within, ?_⟩
    rw [search_eq hne, List.mem_flatMap] at hp
    obtain ⟨n, _, hp⟩ := hp
    obtain ⟨t, ht, _, rfl⟩ := mem_arrivals.mp hp
    exact unpreceded_of_arrives (mem_levelAt_iff.mp ht)
  · rintro ⟨chain, within, free⟩
    have sound := (isSimpleChain_iff.mp chain).2
    rw [search_eq hne, List.mem_flatMap]
    refine ⟨p.length, List.mem_range.mpr (by omega), ?_⟩
    refine mem_arrivals.mpr ⟨⟨goal, p.hops⟩, ?_, rfl, rfl⟩
    exact mem_levelAt_iff.mpr (arrives_of_unpreceded sound.chain sound.simple
      (fun h hh => chain.source_ne_goal hh) free)

end JoinPath

namespace PathFinder

open JoinPath

/-- Within a limit that is not negative the enumeration finds, of the simple chains between two
different tables of at most so many hops, exactly those that come first at every table before the
goal. It thus finds each of them at whose tables no other simple trail of as many hops ends. -/
theorem mem_allPaths_iff (f : PathFinder) {start goal : String} (hne : start ≠ goal)
    {limit : Option Int} (hl : 0 ≤ limit.getD f.maxDepth) :
    ∃ paths, f.allPaths start goal limit = .ok paths ∧
      (∀ p : JoinPath, p ∈ paths ↔ p.IsSimpleChain f.graph.edges start goal ∧
        p.length ≤ limit.getD f.maxDepth ∧ Unpreceded f.graph.edges start goal p.hops) ∧
      ∀ p : JoinPath, p.IsSimpleChain f.graph.edges start goal →
        p.length ≤ limit.getD f.maxDepth →
        (∀ taken h, taken ++ [h] <+: p.hops → ∀ s : Trail,
          s.Sound f.graph.edges start taken.length → s.here = h.source → s.hops = taken) →
        p ∈ paths := by
  have found : ∀ p : JoinPath,
      p ∈ search f.graph.edges start goal (limit.getD f.maxDepth).toNat ↔
        p.IsSimpleChain f.graph.edges start goal ∧ p.length ≤ limit.getD f.maxDepth ∧
          Unpreceded f.graph.edges start goal p.hops := by
    intro p
    have same : p.length ≤ (limit.getD f.maxDepth).toNat ↔
        (p.length : Int) ≤ limit.getD f.maxDepth := by omega
    rw [mem_search_iff hne, same]
  refine ⟨search f.graph.edges start goal (limit.getD f.maxDepth).toNat, ?_, found, ?_⟩
  · have within : ¬ limit.getD f.maxDepth < 0 := by omega
    simp [allPaths, within]
  · intro p chain within only
    refine (found p).mpr ⟨chain, within, fun taken h short s hs same => ?_⟩
    rw [only taken h short s (sound_of_arrives hs) same]

/-- Two ways from `a` to `d`, and one on from there. -/
def diamond : PathFinder where
  graph :=
    { edges := [⟨"1", "a", "b", "x", "x", none⟩, ⟨"2", "a", "c", "x", "x", none⟩,
        ⟨"3", "b", "d", "x", "x", none⟩, ⟨"4", "c", "d", "x", "x", none⟩,
        ⟨"5", "d", "e", "x", "x", none⟩] }
  maxDepth := 3
  bestDepth := 3

theorem mem_allPaths_iff_diamond :
    "a" ≠ "e" ∧ 0 ≤ (some 3 : Option Int).getD diamond.maxDepth ∧
      ∃ paths, diamond.allPaths "a" "e" (some 3) = .ok paths ∧
        (∀ p : JoinPath, p ∈ paths ↔ p.IsSimpleChain diamond.graph.edges "a" "e" ∧
          p.length ≤ (some 3 : Option Int).getD diamond.maxDepth ∧
          Unpreceded diamond.graph.edges "a" "e" p.hops) ∧
        ∀ p : JoinPath, p.IsSimpleChain diamond.graph.edges "a" "e" →
          p.length ≤ (some 3 : Option Int).getD diamond.maxDepth →
          (∀ taken h, taken ++ [h] <+: p.hops → ∀ s : Trail,
            s.Sound diamond.graph.edges "a" taken.length → s.here = h.source → s.hops = taken) →
          p ∈ paths :=
  ⟨by decide, by decide, mem_allPaths_iff diamond (by decide) (by decide)⟩

/-- From `a` to `e` over `c` and `d`. -/
def secondWay : JoinPath :=
  ⟨[⟨"a", "c", "x", "x", "2"⟩, ⟨"c", "d", "x", "x", "4"⟩, ⟨"d", "e", "x", "x", "5"⟩]⟩

theorem isSimpleChain_secondWay : secondWay.IsSimpleChain diamond.graph.edges "a" "e" where
  length_eq := rfl
  length_pos := by decide
  sources := rfl
  targets := rfl
  simple := by decide
  takes := by decide

/-- A simple chain can be lost: the enumeration goes on from `d` by the way over `b` only. -/
theorem not_mem_allPaths_diamond :
    "a" ≠ "e" ∧ secondWay.IsSimpleChain diamond.graph.edges "a" "e" ∧ secondWay.length ≤ 3 ∧
      ∃ paths, diamond.allPaths "a" "e" (some 3) = .ok paths ∧ secondWay ∉ paths :=
  ⟨by decide, isSimpleChain_secondWay, by decide, _, rfl, by decide⟩

end PathFinder

end QueryWorkbench
