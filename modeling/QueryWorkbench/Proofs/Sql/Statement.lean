/-
QueryWorkbench.Proofs.Sql.Statement — a statement is laid out clause by clause.

A statement has a selection, a first table, joins, and clauses that may be there or not. Formatting
searches the text once for each of them. Nothing in a settled statement is taken for a clause that
it is not, so each search finds the clause with the body that is written (`lays_search`). The
lines of all clauses lay the statement out (`Settled.lays_clauseLines`), and squeezing brings it back
(`Settled.squeeze_formatChars`).
-/
import QueryWorkbench.Proofs.Sql.Lines

namespace QueryWorkbench.Sql

open Analysis Pattern Text

/-! ## Layouts -/

/-- A text that is not blank once it is squeezed is not blank. -/
theorem isEmpty_trim {s : List Char} (tidy : Tidy (squeeze s)) : (trim s).isEmpty = false := by
  refine List.isEmpty_eq_false_iff.mpr fun none => ?_
  obtain ⟨lead, trail, split, lead_blank, trail_blank⟩ := exists_trim s
  rw [none, List.nil_append] at split
  have blank : ∀ c ∈ s, isBlank c = true := by
    rw [split]
    exact List.forall_mem_append.mpr ⟨lead_blank, trail_blank⟩
  have some : s ≠ [] := by
    rintro rfl
    exact tidy.nonempty rfl
  have single := squeeze_blank_append (r := []) some blank
  rw [List.append_nil] at single
  have first := tidy.first
  rw [single] at first
  cases first

/-- Formatting forgets the layout that a text comes in. -/
theorem formatChars_congr {s t : List Char} (same : squeeze s = squeeze t) (tidy : Tidy (squeeze t)) :
    formatChars s = formatChars t := by
  simp only [formatChars, isEmpty_trim tidy, isEmpty_trim (same ▸ tidy), same, Bool.false_eq_true,
    if_false]

/-! ## Statements -/

/-- A clause, unless its body is empty. -/
def part (c : PlainClause) (body : List Char) : List (List Char) :=
  if body = [] then [] else [c.text body]

theorem forall_part {P : List Char → Prop} {c : PlainClause} {body : List Char}
    (written : body ≠ [] → P (c.text body)) : ∀ t ∈ part c body, P t := by
  rw [part]
  split
  · exact fun t ht => absurd ht List.not_mem_nil
  · exact List.forall_mem_singleton.mpr (written (by assumption))

/-- An item of a list: a neutral text without a comma. -/
structure IsItem (item : List Char) : Prop where
  neutral : Neutral item
  single : ',' ∉ item

/-- A statement by its clauses. -/
structure Statement where
  items : List (List Char)
  table : List Char
  joins : List Clause.JoinClause
  condition : List Char
  groups : List (List Char)
  sorts : List (List Char)
  paging : Paging

namespace Statement

section

variable (s : Statement)

/-- SELECT and what it lists. -/
def selection : List Char :=
  "SELECT".toList ++ ' ' :: Clause.listText s.paging.top? (listed s.items)

/-- The paging behind the other clauses. -/
def ending : List (List Char) :=
  if Clause.pagingChars s.paging = [] then [] else [Clause.pagingChars s.paging]

/-- The clauses from ORDER BY on. -/
def sorting : List (List Char) := part Clause.orderClause (listed s.sorts) ++ s.ending

/-- The clauses from GROUP BY on. -/
def grouping : List (List Char) := part Clause.groupClause (listed s.groups) ++ s.sorting

/-- The clauses from WHERE on. -/
def filtering : List (List Char) := part Clause.filterClause s.condition ++ s.grouping

/-- The clauses from FROM on. -/
def sourcing : List (List Char) :=
  part Clause.sourceClause s.table ++ (s.joins.map Clause.JoinClause.text ++ s.filtering)

/-- The clauses before WHERE. -/
def toJoins : List (List Char) :=
  part Clause.sourceClause s.table ++ s.joins.map Clause.JoinClause.text

/-- The clauses before GROUP BY. -/
def toFilter : List (List Char) := s.toJoins ++ part Clause.filterClause s.condition

/-- The clauses before ORDER BY. -/
def toGroup : List (List Char) := s.toFilter ++ part Clause.groupClause (listed s.groups)

/-- The clauses before the paging. -/
def toOrder : List (List Char) := s.toGroup ++ part Clause.orderClause (listed s.sorts)

/-- A statement on one line. -/
def chars : List Char := s.selection ++ spaced s.sourcing

/-- A statement whose texts are neutral. The rows that OFFSET skips are those of a sorted
statement. -/
structure Settled : Prop where
  selects : s.items ≠ []
  items : ∀ item ∈ s.items, IsItem item
  table : Neutral s.table
  joins : ∀ j ∈ s.joins, Neutral j.table ∧ Neutral j.condition
  condition : s.condition ≠ [] → Neutral s.condition
  groups : ∀ item ∈ s.groups, IsItem item
  sorts : ∀ item ∈ s.sorts, IsItem item
  sorted : ∀ n count, s.paging = .offsetFetch n count → s.sorts ≠ []

end

/-! ## Words of the clauses -/

theorem neutral_list {items : List (List Char)} (each : ∀ item ∈ items, IsItem item)
    (some : listed items ≠ []) : Neutral (listed items) := by
  refine neutral_listed ?_ fun item hi => (each item hi).neutral
  rintro rfl
  exact some rfl

section

variable {ks : List String} (sub : ∀ k ∈ ks, k ∈ Clause.words)
include sub

theorem lacks_natural (n : Nat) : Lacks ks (natural n) := by
  have hit : ∀ k ∈ Clause.words, ∃ c ∈ "lorty".toList, c ∈ k.toList.map Char.toLower := by decide
  exact (lacks_of_absent hit (forall_mem_natural n (by decide))).mono sub

theorem lacks_part {c : PlainClause} {body : List Char} (neutral : body ≠ [] → Neutral body)
    (keys : Lacks ks c.keys.toList) : ∀ t ∈ part c body, Lacks ks t :=
  forall_part fun some => lacks_append_space.mpr ⟨keys, (neutral some).lacks.mono sub⟩

theorem lacks_joins {joins : List Clause.JoinClause}
    (neutral : ∀ j ∈ joins, Neutral j.table ∧ Neutral j.condition)
    (keys : ∀ k ∈ "ON" :: Clause.joinWords, Lacks ks k.toList) :
    ∀ t ∈ joins.map Clause.JoinClause.text, Lacks ks t := by
  intro t ht
  obtain ⟨j, hj, rfl⟩ := List.mem_map.mp ht
  have kind : Lacks ks j.kind.name.toList := by cases j.kind <;> exact keys _ (by decide)
  simp only [Clause.JoinClause.text, lacks_append_space]
  exact ⟨kind, keys "JOIN" (by decide), (neutral j hj).1.lacks.mono sub, keys "ON" (by decide),
    (neutral j hj).2.lacks.mono sub⟩

theorem lacks_ending (s : Statement) (keys : ∀ k ∈ Clause.pagingKeys, Lacks ks k.toList) :
    ∀ t ∈ s.ending, Lacks ks t := by
  intro t ht
  rw [ending] at ht
  split at ht
  · cases ht
  · obtain rfl := List.mem_singleton.mp ht
    have number := lacks_natural sub
    have word : ∀ k ∈ ["LIMIT", "OFFSET", "ROWS", "FETCH", "NEXT", "ONLY"], Lacks ks k.toList := keys
    unfold Clause.pagingChars
    split <;> simp only [lacks_append_space, lacks_nil, number, word, List.mem_cons, true_or, or_true,
      and_self]

section

variable {s : Statement} (h : s.Settled)
include h

theorem Settled.lacks_sorting (keys : ∀ k ∈ "ORDER BY" :: Clause.pagingKeys, Lacks ks k.toList) :
    ∀ t ∈ s.sorting, Lacks ks t :=
  List.forall_mem_append.mpr ⟨lacks_part sub (neutral_list h.sorts) (keys _ (List.mem_cons_self ..)),
    lacks_ending sub s fun k hk => keys k (List.mem_cons_of_mem _ hk)⟩

theorem Settled.lacks_grouping
    (keys : ∀ k ∈ "GROUP BY" :: "ORDER BY" :: Clause.pagingKeys, Lacks ks k.toList) :
    ∀ t ∈ s.grouping, Lacks ks t :=
  List.forall_mem_append.mpr ⟨lacks_part sub (neutral_list h.groups) (keys _ (List.mem_cons_self ..)),
    h.lacks_sorting sub fun k hk => keys k (List.mem_cons_of_mem _ hk)⟩

theorem Settled.lacks_filtering
    (keys : ∀ k ∈ "WHERE" :: "GROUP BY" :: "ORDER BY" :: Clause.pagingKeys, Lacks ks k.toList) :
    ∀ t ∈ s.filtering, Lacks ks t :=
  List.forall_mem_append.mpr ⟨lacks_part sub h.condition (keys _ (List.mem_cons_self ..)),
    h.lacks_grouping sub fun k hk => keys k (List.mem_cons_of_mem _ hk)⟩

theorem Settled.lacks_toJoins (keys : ∀ k ∈ "FROM" :: "ON" :: Clause.joinWords, Lacks ks k.toList) :
    ∀ t ∈ s.toJoins, Lacks ks t :=
  List.forall_mem_append.mpr ⟨lacks_part sub (fun _ => h.table) (keys _ (List.mem_cons_self ..)),
    lacks_joins sub h.joins fun k hk => keys k (List.mem_cons_of_mem _ hk)⟩

theorem Settled.lacks_toFilter
    (keys : ∀ k ∈ "WHERE" :: "FROM" :: "ON" :: Clause.joinWords, Lacks ks k.toList) :
    ∀ t ∈ s.toFilter, Lacks ks t :=
  List.forall_mem_append.mpr ⟨h.lacks_toJoins sub fun k hk => keys k (List.mem_cons_of_mem _ hk),
    lacks_part sub h.condition (keys _ (List.mem_cons_self ..))⟩

theorem Settled.lacks_toGroup
    (keys : ∀ k ∈ "GROUP BY" :: "WHERE" :: "FROM" :: "ON" :: Clause.joinWords, Lacks ks k.toList) :
    ∀ t ∈ s.toGroup, Lacks ks t :=
  List.forall_mem_append.mpr ⟨h.lacks_toFilter sub fun k hk => keys k (List.mem_cons_of_mem _ hk),
    lacks_part sub (neutral_list h.groups) (keys _ (List.mem_cons_self ..))⟩

theorem Settled.lacks_toOrder (keys : ∀ k ∈ "ORDER BY" :: "GROUP BY" :: "WHERE" :: "FROM" :: "ON" ::
    Clause.joinWords, Lacks ks k.toList) : ∀ t ∈ s.toOrder, Lacks ks t :=
  List.forall_mem_append.mpr ⟨h.lacks_toGroup sub fun k hk => keys k (List.mem_cons_of_mem _ hk),
    lacks_part sub (neutral_list h.sorts) (keys _ (List.mem_cons_self ..))⟩

theorem Settled.lacks_selection
    (keys : Lacks ks "SELECT".toList ∧ Lacks ks "TOP".toList) : Lacks ks s.selection := by
  have items := (neutral_listed h.selects fun item hi => (h.items item hi).neutral).lacks.mono sub
  unfold selection Clause.listText
  split
  · rename_i n _
    simp only [Clause.topChars, lacks_append_space, items, keys, lacks_natural sub n, and_self]
  · exact lacks_append_space.mpr ⟨keys.1, items⟩

end

end

/-! ## What follows a clause -/

theorem followed_part {keys : List String} {rest : List (List Char)} (c : PlainClause)
    {body : List Char} (h : body = [] → Followed keys (spaced rest)) :
    Followed (c.keys :: keys) (spaced (part c body ++ rest)) := by
  rw [part]
  split
  · rename_i none
    exact (h none).mono fun _ => List.mem_cons_of_mem _
  · refine Or.inr ⟨c.keys, List.mem_cons_self .., body ++ spaced rest, ?_⟩
    simp only [PlainClause.text, List.cons_append, List.nil_append, spaced_cons, List.append_assoc]

theorem followed_ending {s : Statement} {keys : List String} (limit : "LIMIT" ∈ keys)
    (offset : ∀ n count, s.paging = .offsetFetch n count → "OFFSET" ∈ keys) :
    Followed keys (spaced s.ending) := by
  have shown {k : String} {rest : List Char} (listed : k ∈ keys)
      (text : Clause.pagingChars s.paging = k.toList ++ ' ' :: rest) :
      Followed keys (spaced s.ending) := by
    refine Or.inr ⟨k, listed, rest, ?_⟩
    rw [ending, if_neg (by simp [text]), spaced_cons, spaced_nil, List.append_nil, text]
  have hidden (none : Clause.pagingChars s.paging = []) : Followed keys (spaced s.ending) :=
    Or.inl (by rw [ending, if_pos none, spaced_nil])
  match paged : s.paging with
  | .none => exact hidden (by rw [paged]; rfl)
  | .top n => exact hidden (by rw [paged]; rfl)
  | .limit count none => exact shown limit (by rw [paged]; rfl)
  | .limit count (some n) => exact shown limit (by rw [paged]; rfl)
  | .offsetFetch n count => exact shown (offset n count paged) (by rw [paged]; rfl)

section

variable {s : Statement} (h : s.Settled)
include h

theorem Settled.followed_sorting : Followed ["ORDER BY", "LIMIT"] (spaced s.sorting) := by
  refine followed_part Clause.orderClause fun none => followed_ending (by decide) ?_
  intro n count paged
  have sorts := neutral_listed (h.sorted n count paged) fun item hi => (h.sorts item hi).neutral
  exact absurd none sorts.tidy.nonempty

theorem Settled.followed_grouping : Followed ["GROUP BY", "ORDER BY", "LIMIT"] (spaced s.grouping) :=
  followed_part Clause.groupClause fun _ => h.followed_sorting

theorem Settled.followed_filtering :
    Followed ["WHERE", "GROUP BY", "ORDER BY", "LIMIT"] (spaced s.filtering) :=
  followed_part Clause.filterClause fun _ => h.followed_grouping

theorem Settled.followed_joining : Followed (Clause.joinKeys ++ ["WHERE", "GROUP BY", "ORDER BY",
    "LIMIT"]) (spaced (s.joins.map Clause.JoinClause.text ++ s.filtering)) := by
  have followed := Clause.followed_joinsText s.joins h.followed_filtering
  rwa [Clause.joinsText, ← List.flatMap_map, ← spaced, ← spaced_append] at followed

end

/-! ## The text as it is normalised -/

theorem normalised_natural (n : Nat) : Normalised (natural n) :=
  normalised_of_solid (natural_ne_nil n) (forall_mem_natural n (by decide))

theorem normalised_pagingChars {p : Paging} (paged : Clause.pagingChars p ≠ []) :
    Normalised (Clause.pagingChars p) := by
  have number := normalised_natural
  have word : ∀ k ∈ Clause.pagingKeys, Normalised k.toList := by decide
  unfold Clause.pagingChars at paged ⊢
  split at paged
  · exact (word "LIMIT" (by decide)).space (number _)
  · exact (word "LIMIT" (by decide)).space ((number _).space
      ((word "OFFSET" (by decide)).space (number _)))
  · exact (word "OFFSET" (by decide)).space ((number _).space ((word "ROWS" (by decide)).space
      ((word "FETCH" (by decide)).space ((word "NEXT" (by decide)).space ((number _).space
        ((word "ROWS" (by decide)).space (word "ONLY" (by decide))))))))
  · exact absurd rfl paged

theorem normalised_part {c : PlainClause} {body : List Char} (neutral : body ≠ [] → Neutral body)
    (keys : Normalised c.keys.toList) : ∀ t ∈ part c body, Normalised t :=
  forall_part fun some => keys.space (neutral some).toNormalised

section

variable {s : Statement} (h : s.Settled)
include h

theorem Settled.normalised_selection : Normalised s.selection := by
  have select : Normalised "SELECT".toList := by decide
  have top : Normalised "TOP".toList := by decide
  have items := (neutral_listed h.selects fun item hi => (h.items item hi).neutral).toNormalised
  unfold selection Clause.listText
  split
  · exact select.space ((top.space (normalised_natural _)).space items)
  · exact select.space items

theorem Settled.normalised_sourcing : ∀ t ∈ s.sourcing, Normalised t := by
  refine List.forall_mem_append.mpr ⟨normalised_part (fun _ => h.table) (by decide),
    List.forall_mem_append.mpr ⟨fun t ht => ?_,
      List.forall_mem_append.mpr ⟨normalised_part h.condition (by decide),
        List.forall_mem_append.mpr ⟨normalised_part (neutral_list h.groups) (by decide),
          List.forall_mem_append.mpr ⟨normalised_part (neutral_list h.sorts) (by decide),
            fun t ht => ?_⟩⟩⟩⟩⟩
  · obtain ⟨j, hj, rfl⟩ := List.mem_map.mp ht
    have kind : Normalised j.kind.name.toList := by cases j.kind <;> decide
    have join_ : Normalised "JOIN".toList := by decide
    have on_ : Normalised "ON".toList := by decide
    exact kind.space (join_.space ((h.joins j hj).1.toNormalised.space
      (on_.space (h.joins j hj).2.toNormalised)))
  · rw [ending] at ht
    split at ht
    · cases ht
    · rename_i paged
      exact List.mem_singleton.mp ht ▸ normalised_pagingChars paged

/-- A settled statement is normalised. -/
theorem Settled.normalised : Normalised s.chars := h.normalised_selection.spaced h.normalised_sourcing

end

theorem chars_eq_select (s : Statement) : s.chars = "SELECT".toList ++
    ' ' :: (Clause.listText s.paging.top? (listed s.items) ++ spaced s.sourcing) :=
  List.append_assoc "SELECT".toList (' ' :: Clause.listText s.paging.top? (listed s.items)) _

/-- A settled statement is searched from its start. -/
theorem mainSelect_chars (s : Statement) : mainSelect s.chars = 0 := by
  have text := s.chars_eq_select
  generalize Clause.listText s.paging.top? (listed s.items) ++ spaced s.sourcing = r at text
  have edge : (⟨some 'T', 6, ' ' :: r⟩ : Place).atWordEdge = true := by rfl
  have start : First (wordEdge (σ := Piece)) ⟨none, 0, "SELECT".toList ++ ' ' :: r⟩
      ⟨none, 0, "SELECT".toList ++ ' ' :: r⟩ [] := first_wordEdge (by rfl)
  have word : First (keyword (σ := Piece) "SELECT") ⟨none, 0, "SELECT".toList ++ ' ' :: r⟩
      ⟨some 'T', 6, ' ' :: r⟩ [] := first_keyword (by decide)
  have found : First Clause.nesting ⟨none, 0, "SELECT".toList ++ ' ' :: r⟩ _ _ :=
    .or_right (by rfl) (.or_right (by rfl) (start.andThen (word.andThen (first_wordEdge edge))))
  rw [mainSelect, findAll_eq, text, matchesFrom_take (by decide) found rfl]
  rfl

/-- A text that is normalised to a statement is laid out as its clauses are. -/
theorem formatChars_eq_intercalate {t : List Char} {s : Statement} (firm : Firm t)
    (same : normal t = s.chars) (some : clauseLines s.chars ≠ []) :
    formatChars t = ['\n'].intercalate (clauseLines s.chars) := by
  have tidy := tidy_normal firm
  have kept : trim (tidyCommas (squeeze t)) = s.chars :=
    (trim_eq tidy.first tidy.last).trans same
  simp only [formatChars, isEmpty_trim firm.tidy_squeeze, kept, mainSelect_chars, List.drop_zero,
    Bool.false_eq_true, if_false, if_true]

/-! ## Searches -/

section

variable (s : Statement)

theorem chars_eq_filter : s.chars =
    s.selection ++ spaced (s.toJoins ++ (part Clause.filterClause s.condition ++ s.grouping)) := by
  rw [chars, sourcing, filtering, toJoins, List.append_assoc]

theorem chars_eq_group : s.chars =
    s.selection ++ spaced (s.toFilter ++ (part Clause.groupClause (listed s.groups) ++ s.sorting)) := by
  rw [chars_eq_filter, grouping, toFilter, List.append_assoc]

theorem chars_eq_order : s.chars =
    s.selection ++ spaced (s.toGroup ++ (part Clause.orderClause (listed s.sorts) ++ s.ending)) := by
  rw [chars_eq_group, sorting, toGroup, List.append_assoc]

theorem chars_eq_paging : s.chars = s.selection ++ spaced s.toOrder ++ spaced s.ending := by
  rw [chars_eq_order, ← List.append_assoc, ← toOrder, spaced_append, List.append_assoc]

end

theorem head?_spaced (ts : List (List Char)) : (spaced ts).head?.any isWord = false := by
  cases ts <;> rfl

theorem lays_list {head : List Char} {items : List (List Char)} (each : ∀ item ∈ items, IsItem item)
    (head_tidy : Tidy head) (some : listed items ≠ []) :
    Lays (itemLines head (splitItems (listed items))) [head ++ ' ' :: listed items] := by
  have tidy : ∀ item ∈ items, Tidy item := fun item hi => (each item hi).neutral.tidy
  rw [splitItems_listed tidy fun item hi => (each item hi).single]
  refine lays_itemLines head_tidy ?_ tidy
  rintro rfl
  exact some rfl

/-- The search for a clause finds it with its body, and nothing where its body is empty. -/
theorem lays_search {c : PlainClause} (sound : c.Sound) {front text body : List Char}
    {before rest : List (List Char)} (split : text = front ++ spaced (before ++ (part c body ++ rest)))
    (front_lacks : Lacks [c.opening] front) (before_lacks : ∀ t ∈ before, Lacks [c.opening] t)
    (rest_lacks : ∀ t ∈ rest, Lacks [c.opening] t) (neutral : body ≠ [] → Neutral body)
    (sub : ∀ k ∈ c.enders, k ∈ Clause.words) (followed : Followed c.followers (spaced rest))
    (lines : List Char → List (List Char)) (lays : body ≠ [] → Lays (lines body) [c.text body]) :
    Lays (((c.pattern.search? text).map fun m => lines (m.part c.slot)).getD []) (part c body) := by
  have lacks : Lacks [c.opening] (front ++ spaced before) :=
    (lacks_append (head?_spaced before)).mpr ⟨front_lacks, lacks_spaced.mpr before_lacks⟩
  rw [spaced_append, ← List.append_assoc] at split
  by_cases none : body = []
  · rw [part, if_pos none, List.nil_append] at split
    have missing : c.pattern.search? text = Option.none := sound.search?_eq_none (by
      rw [split]
      exact (lacks_append (head?_spaced rest)).mpr ⟨lacks, lacks_spaced.mpr rest_lacks⟩)
    rw [missing, part, if_pos none]
    exact .nil
  · rw [part, if_neg none, List.singleton_append, spaced_cons] at split
    obtain ⟨m, found, kept⟩ := sound.exists_search? lacks ((neutral none).lacks.mono sub)
      (neutral none).tidy followed
    rw [split, found, Option.map_some, Option.getD_some, kept, part, if_neg none]
    exact lays none

section

variable {s : Statement} (h : s.Settled)
include h

/-- SELECT is found with what it lists. -/
theorem Settled.exists_select : ∃ m, Clause.select.search? s.chars = some m ∧
    m.part .items = listed s.items ∧
      (m.part? .top).map trim = s.paging.top?.map Clause.topChars := by
  have items := neutral_listed h.selects fun item hi => (h.items item hi).neutral
  have sourced : s.sourcing = ("FROM".toList ++ ' ' :: s.table) ::
      (s.joins.map Clause.JoinClause.text ++ s.filtering) := by
    rw [sourcing, part, if_neg h.table.tidy.nonempty]
    rfl
  have ends (before : Option Char) (position : Nat) : (Clause.afterBlanks (keyword "FROM")).outcomes
      ⟨before, position, spaced s.sourcing⟩ ≠ [] := by
    rw [sourced, spaced_cons, List.append_assoc, List.cons_append]
    exact Clause.outcomes_keyword_ne_nil (by decide) (by decide) _
  have found := Clause.exists_search?_select s.paging.top? (items.lacks.mono (by decide)) items.tidy
    (head?_spaced s.sourcing) ends
  rwa [← s.chars_eq_select] at found

/-- FROM is laid out on one line. -/
theorem Settled.lays_source : Lays (((Clause.source.search? s.chars).map fun m =>
    ["FROM ".toList ++ trim (m.part .table)]).getD []) (part Clause.sourceClause s.table) := by
  have split : s.chars = s.selection ++ spaced ([] ++ (part Clause.sourceClause s.table ++
      (s.joins.map Clause.JoinClause.text ++ s.filtering))) := rfl
  refine lays_search Clause.sound_source split (h.lacks_selection (by decide) (by decide)) (by simp)
    ?_ (fun _ => h.table) (by decide) h.followed_joining
    (fun body => ["FROM ".toList ++ trim body]) fun _ => ?_
  · exact List.forall_mem_append.mpr ⟨lacks_joins (by decide) h.joins (by decide),
      h.lacks_filtering (by decide) (by decide)⟩
  · rw [h.table.trim_eq]
    exact .alone (Tidy.space (s := "FROM".toList) (by decide) h.table.tidy)

/-- Joins are laid out one below the other. -/
theorem Settled.lays_joins : Lays ((Clause.join.findAll s.chars).flatMap joinLines)
    (s.joins.map Clause.JoinClause.text) := by
  have front : Lacks Clause.joinWords (s.selection ++ spaced (part Clause.sourceClause s.table)) :=
    (lacks_append (head?_spaced _)).mpr ⟨h.lacks_selection (by decide) (by decide), lacks_spaced.mpr
      (lacks_part (by decide) (fun _ => h.table) (by decide))⟩
  have behind : Lacks Clause.joinWords (spaced s.filtering) :=
    lacks_spaced.mpr (h.lacks_filtering (by decide) (by decide))
  have settled : ∀ j ∈ s.joins, j.Settled := fun j hj =>
    ⟨(h.joins j hj).1.lacks.mono (by decide), (h.joins j hj).1.tidy,
      (h.joins j hj).2.lacks.mono (by decide), (h.joins j hj).2.tidy⟩
  have text : s.chars = s.selection ++ spaced (part Clause.sourceClause s.table) ++
      (Clause.joinsText s.joins ++ spaced s.filtering) := by
    rw [chars, sourcing, spaced_append, spaced_append, List.append_assoc, Clause.joinsText, spaced,
      spaced, spaced, List.flatMap_map]
  have edge : (Clause.joinsText s.joins ++ spaced s.filtering).head?.any isWord = false := by
    cases s.joins with
    | nil => exact head?_spaced _
    | cons j joins => rfl
  rw [findAll_eq, text, Clause.opens_join.matchesFrom_append front edge,
    Clause.flatMap_joinLines_matchesFrom settled h.followed_filtering behind]
  exact .flatMap fun j hj => lays_join (h.joins j hj).1 (h.joins j hj).2

/-- WHERE is laid out with its condition. -/
theorem Settled.lays_filter : Lays (((Clause.filter.search? s.chars).map fun m =>
    conditionLines "WHERE".toList (trim (m.part .condition)) "  ".toList).getD [])
    (part Clause.filterClause s.condition) := by
  refine lays_search Clause.sound_filter s.chars_eq_filter (h.lacks_selection (by decide) (by decide))
    (h.lacks_toJoins (by decide) (by decide)) (h.lacks_grouping (by decide) (by decide)) h.condition
    (by decide) h.followed_grouping (fun body => conditionLines "WHERE".toList (trim body) "  ".toList)
    fun some => ?_
  rw [(h.condition some).trim_eq]
  exact lays_conditionLines [] _ _ (by simp) (by decide) (by decide) (h.condition some)

/-- GROUP BY is laid out with its items. -/
theorem Settled.lays_group : Lays (((Clause.groupBy.search? s.chars).map fun m =>
    itemLines "GROUP BY".toList (splitItems (m.part .items))).getD [])
    (part Clause.groupClause (listed s.groups)) :=
  lays_search Clause.sound_group s.chars_eq_group (h.lacks_selection (by decide) (by decide))
    (h.lacks_toFilter (by decide) (by decide)) (h.lacks_sorting (by decide) (by decide))
    (neutral_list h.groups) (by decide) h.followed_sorting
    (fun body => itemLines "GROUP BY".toList (splitItems body)) (lays_list h.groups (by decide))

/-- ORDER BY is laid out with its items. -/
theorem Settled.lays_order : Lays (((Clause.orderBy.search? s.chars).map fun m =>
    itemLines "ORDER BY".toList (splitItems (m.part .items))).getD [])
    (part Clause.orderClause (listed s.sorts)) :=
  lays_search Clause.sound_order s.chars_eq_order (h.lacks_selection (by decide) (by decide))
    (h.lacks_toGroup (by decide) (by decide)) (lacks_ending (by decide) s (by decide))
    (neutral_list h.sorts) (by decide) (followed_ending (by decide) fun _ _ _ => by decide)
    (fun body => itemLines "ORDER BY".toList (splitItems body)) (lays_list h.sorts (by decide))

/-- Paging is laid out on one line. -/
theorem Settled.lays_paging : Lays (((Clause.paging.search? s.chars).map fun m =>
    [(m.part .paging).map keywordCapital]).getD []) s.ending := by
  have front : Lacks Clause.pagingWords (s.selection ++ spaced s.toOrder) :=
    (lacks_append (head?_spaced _)).mpr ⟨h.lacks_selection (by decide) (by decide),
      lacks_spaced.mpr (h.lacks_toOrder (by decide) (by decide))⟩
  rw [chars_eq_paging, ending]
  split
  · rw [spaced_nil, List.append_nil, Clause.opens_paging.search?_eq,
      Clause.opens_paging.matchesFrom_eq_nil front]
    exact .nil
  · rename_i paged
    obtain ⟨m, found, kept⟩ := Clause.exists_search?_paging paged front
    rw [spaced_cons, spaced_nil, List.append_nil, found, Option.map_some, Option.getD_some, kept,
      Clause.map_keywordCapital_pagingChars]
    exact .alone (normalised_pagingChars paged).tidy

/-- What the lines of SELECT start with. -/
def heading (top : Option (List Char)) : List Char :=
  match top with
  | some top => "SELECT ".toList ++ trim top
  | none => "SELECT".toList

omit h in
theorem exists_heading {top : Option (List Char)}
    (counted : top.map trim = s.paging.top?.map Clause.topChars) : ∃ r, heading top = 'S' :: r ∧
      Tidy ('S' :: r) ∧ s.selection = ('S' :: r) ++ ' ' :: listed s.items := by
  have word : Tidy "SELECT".toList := by decide
  show ∃ r, heading top = 'S' :: r ∧ Tidy ('S' :: r) ∧
    "SELECT".toList ++ ' ' :: Clause.listText s.paging.top? (listed s.items) = _
  cases limit : s.paging.top? with
  | none =>
    rw [limit, Option.map_none, Option.map_eq_none_iff] at counted
    exact ⟨"ELECT".toList, by rw [counted]; rfl, word, rfl⟩
  | some n =>
    rw [limit, Option.map_some, Option.map_eq_some_iff] at counted
    obtain ⟨t, rfl, trimmed⟩ := counted
    have tidy := word.space (Clause.tidy_topChars n)
    have shown : heading (some t) = "SELECT ".toList ++ Clause.topChars n := by
      rw [← trimmed]
      rfl
    rw [shown, Clause.listText]
    generalize Clause.topChars n = top at tidy ⊢
    refine ⟨"ELECT".toList ++ ' ' :: top, rfl, tidy, ?_⟩
    exact (List.append_assoc "SELECT".toList (' ' :: top) _).symm

/-- SELECT is laid out with its items, and the first line starts with it. -/
theorem Settled.lays_select : ∃ r more, (((Clause.select.search? s.chars).map fun m =>
    itemLines (heading (m.part? .top)) (splitItems (trim (m.part .items)))).getD []) =
      ('S' :: r) :: more ∧ Lays (('S' :: r) :: more) [s.selection] := by
  obtain ⟨m, found, items, top⟩ := h.exists_select
  have some : listed s.items ≠ [] :=
    (neutral_listed h.selects fun item hi => (h.items item hi).neutral).tidy.nonempty
  obtain ⟨r, same, tidy, text⟩ := exists_heading top
  have laid := lays_list h.items tidy some
  rw [found, Option.map_some, Option.getD_some, items, (neutral_list h.items some).trim_eq, same, text]
  unfold itemLines at laid ⊢
  split at laid
  · exact ⟨_, _, rfl, laid⟩
  · exact ⟨_, _, rfl, laid⟩

/-- The lines of all clauses lay the statement out, and the first one starts with SELECT. -/
theorem Settled.lays_clauseLines : ∃ r more, clauseLines s.chars = ('S' :: r) :: more ∧
    Lays (('S' :: r) :: more) (s.selection :: s.sourcing) := by
  obtain ⟨r, more, first, select⟩ := h.lays_select
  have rest := h.lays_source.append (h.lays_joins.append (h.lays_filter.append
    (h.lays_group.append (h.lays_order.append h.lays_paging))))
  refine ⟨r, more ++ _, ?_, select.append rest⟩
  rw [← List.cons_append, ← first]
  simp only [clauseLines, List.append_assoc]
  rfl

/-- Laid out and squeezed, a settled statement is what it was. -/
theorem Settled.squeeze_formatChars : squeeze (formatChars s.chars) = s.chars := by
  obtain ⟨r, more, first, lays⟩ := h.lays_clauseLines
  have laid := formatChars_eq_intercalate h.normalised.firm h.normalised.kept
    (by rw [first]; exact List.cons_ne_nil _ _)
  -- The line break in front of the lines is squeezed into the space in front of the statement.
  have whole := lays []
  rw [List.append_nil, List.flatMap_cons, squeeze_nil, List.append_nil, spaced_cons, ← chars,
    List.cons_append, squeeze_cons] at whole
  have solid : isBlank 'S' = false := by decide
  have start : (squeeze (('S' :: r) ++ more.flatMap ('\n' :: ·))).head? ≠ some ' ' := by
    rw [List.cons_append, squeeze_cons, squeezeOnto, if_neg (by simp [solid])]
    simp
  rw [squeezeOnto, if_pos (by decide), if_neg start] at whole
  rw [laid, first, intercalate_cons]
  exact (List.cons.inj whole).2

end

end Statement

end QueryWorkbench.Sql
