/-
QueryWorkbench.Proofs.Sql.Lines — clauses over several lines.

Formatting writes the items of a clause under each other and starts new lines in conditions. Lines
lay texts out (`Lays`) when squeezing them gives these texts, each behind a space, whatever comes
behind the lines; lines one after the other lay out the texts of both. Texts that can be laid out
are `Neutral`: normalised, without words of the clause patterns, and with connectives in capitals.
-/
import QueryWorkbench.Proofs.Sql.Connectives
import QueryWorkbench.Proofs.Sql.JoinMatch

namespace QueryWorkbench.Sql

open Analysis Pattern Text

/-! ## Neutral texts -/

/-- The words of the clause patterns. -/
def Clause.words : List String :=
  ["SELECT", "TOP", "FROM", "INNER", "LEFT", "RIGHT", "FULL", "JOIN", "ON", "WHERE", "GROUP", "BY",
    "ORDER", "LIMIT", "OFFSET", "ROWS", "FETCH", "NEXT", "ONLY"]

/-- A text with solid ends that normalising leaves as it is. -/
structure Normalised (s : List Char) : Prop where
  firm : Firm s
  kept : normal s = s

instance (s : List Char) : Decidable (Normalised s) :=
  decidable_of_iff (Firm s ∧ normal s = s) ⟨fun ⟨a, b⟩ => ⟨a, b⟩, fun ⟨a, b⟩ => ⟨a, b⟩⟩

theorem normalised_of_solid {s : List Char} (nonempty : s ≠ []) (solid : ∀ c ∈ s, isSolid c = true) :
    Normalised s := by
  refine ⟨.of_all nonempty solid, ?_⟩
  clear nonempty
  induction s with
  | nil => rfl
  | cons c s ih =>
    rw [normal_cons (solid c (List.mem_cons_self ..)), ih fun d hd =>
      solid d (List.mem_cons_of_mem _ hd)]

namespace Normalised

variable {s t : List Char}

theorem tidy (h : Normalised s) : Tidy s := by
  have tidy := tidy_normal h.firm
  rwa [h.kept] at tidy

theorem trim_eq (h : Normalised s) : trim s = s := Analysis.trim_eq h.tidy.first h.tidy.last

/-- Two texts with a separator between them. -/
theorem append {g : List Char} (separator : normal g = g) (hs : Normalised s) (ht : Normalised t) :
    Normalised (s ++ (g ++ t)) := by
  have kept := normal_append hs.firm ht.firm g
  rw [separator, hs.kept, ht.kept] at kept
  exact ⟨hs.firm.append ht.firm g, kept⟩

theorem space (hs : Normalised s) (ht : Normalised t) : Normalised (s ++ ' ' :: t) :=
  append (g := [' ']) (by decide) hs ht

theorem spaced (hs : Normalised s) {ts : List (List Char)} (each : ∀ t ∈ ts, Normalised t) :
    Normalised (s ++ spaced ts) := by
  have same : ts.map normal = ts :=
    (List.map_congr_left fun t ht => (each t ht).kept).trans (List.map_id _)
  have kept := normal_spaced hs.firm fun t ht => (each t ht).firm
  rw [hs.kept, same] at kept
  exact ⟨hs.firm.spaced fun t ht => (each t ht).firm, kept⟩

end Normalised

/-- A normalised text that is laid out as it is. -/
structure Neutral (s : List Char) : Prop extends Normalised s where
  lacks : Lacks Clause.words s
  capitals : ∀ w ∈ wordsOf s, Connects w → w.map keywordCapital = w

instance (s : List Char) : Decidable (Neutral s) :=
  decidable_of_iff (Normalised s ∧ Lacks Clause.words s ∧
      ∀ w ∈ wordsOf s, Connects w → w.map keywordCapital = w)
    ⟨fun ⟨a, b, c⟩ => ⟨a, b, c⟩, fun ⟨a, b, c⟩ => ⟨a, b, c⟩⟩

/-- A text without any word of the patterns is neutral. -/
theorem Normalised.neutral {s : List Char} (h : Normalised s)
    (lacks : Lacks (Clause.words ++ ["AND", "OR"]) s) : Neutral s := by
  refine ⟨h, lacks.mono fun _ => List.mem_append_left _, ?_⟩
  rintro w hw ⟨k, hk, spelled⟩
  exact absurd spelled (lacks w hw k (List.mem_append_right _ hk))

namespace Neutral

variable {s t : List Char}

/-- Two texts with a separator between them that has no words. -/
theorem append {c : Char} {g : List Char} (separator : normal (c :: g) = c :: g)
    (edge : isWord c = false) (wordless : wordsOf (g ++ t) = wordsOf t) (hs : Neutral s)
    (ht : Neutral t) : Neutral (s ++ c :: (g ++ t)) := by
  have words : wordsOf (s ++ c :: (g ++ t)) = wordsOf s ++ wordsOf t := by
    rw [wordsOf_append_cons edge, wordless]
  refine ⟨.append separator hs.toNormalised ht.toNormalised, ?_, ?_⟩
  · rw [Lacks, words]
    exact List.forall_mem_append.mpr ⟨hs.lacks, ht.lacks⟩
  · rw [words]
    exact List.forall_mem_append.mpr ⟨hs.capitals, ht.capitals⟩

theorem space (hs : Neutral s) (ht : Neutral t) : Neutral (s ++ ' ' :: t) :=
  append (g := []) (by decide) (by decide) rfl hs ht

theorem comma (hs : Neutral s) (ht : Neutral t) : Neutral (s ++ ',' :: ' ' :: t) :=
  append (g := [' ']) (by decide) (by decide) (wordsOf_cons (by decide) t) hs ht

/-- A connective between blanks is in capitals. -/
theorem capitals_of_mem_chunks (h : Neutral s) :
    ∀ k ∈ chunks s, Connects k → k.map keywordCapital = k :=
  fun k hk connects => h.capitals k (mem_wordsOf_of_connects hk connects) connects

end Neutral

/-! ## Lines -/

/-- Lines that squeezing turns into texts behind spaces. -/
def Lays (lines texts : List (List Char)) : Prop :=
  ∀ r, squeeze (lines.flatMap ('\n' :: ·) ++ r) = spaced texts ++ squeeze r

namespace Lays

variable {ls ms ts us : List (List Char)} {s t : List Char}

theorem nil : Lays [] [] := fun _ => rfl

theorem append (h : Lays ls ts) (k : Lays ms us) : Lays (ls ++ ms) (ts ++ us) := by
  intro r
  rw [List.flatMap_append, List.append_assoc, h, k, spaced_append, List.append_assoc]

theorem flatMap {α : Type} {items : List α} {f : α → List (List Char)} {g : α → List Char}
    (each : ∀ x ∈ items, Lays (f x) [g x]) : Lays (items.flatMap f) (items.map g) := by
  induction items with
  | nil => exact nil
  | cons x items ih =>
    rw [List.flatMap_cons, List.map_cons]
    exact (each x (List.mem_cons_self ..)).append (ih fun y hy => each y (List.mem_cons_of_mem _ hy))

/-- A tidy text on a line of its own, indented or not. -/
theorem line (gap : List Char) (blank : ∀ c ∈ gap, isBlank c = true) (h : Tidy s) :
    Lays [gap ++ s] [s] := by
  have all : ∀ c ∈ '\n' :: gap, isBlank c = true := by
    intro c hc
    rcases List.mem_cons.mp hc with rfl | hc
    · decide
    · exact blank c hc
  intro r
  have squeezed := h.squeeze_gap r (List.cons_ne_nil _ _) all
  simpa using squeezed

theorem alone (h : Tidy s) : Lays [s] [s] := line [] (by simp) h

/-- Two texts with a space between them are one. -/
theorem join (h : Lays ls (s :: t :: ts)) : Lays ls ((s ++ ' ' :: t) :: ts) := by
  intro r
  simp only [h r, spaced_cons, List.append_assoc, List.cons_append]

end Lays

/-! ## Items -/

/-- Items with a comma and a space between any two. -/
abbrev listed (items : List (List Char)) : List Char := [',', ' '].intercalate items

section

variable {item : List Char} {items : List (List Char)}

theorem listed_cons_cons (first next : List Char) (rest : List (List Char)) :
    listed (first :: next :: rest) = first ++ ',' :: ' ' :: listed (next :: rest) := by
  rw [listed, List.intercalate_cons_cons, List.append_assoc]
  rfl

/-- The items of a list can be read back. -/
theorem splitItems_listed (tidy : ∀ item ∈ items, Tidy item) (single : ∀ item ∈ items, ',' ∉ item) :
    splitItems (listed items) = items := by
  have split : ∀ rest first, ',' ∉ first → (∀ item ∈ rest, ',' ∉ item) →
      (listed (first :: rest)).splitOn ',' = first :: rest.map (' ' :: ·) := by
    intro rest
    induction rest with
    | nil =>
      intro first alone _
      rw [listed, List.intercalate_singleton]
      exact List.splitOn_eq_singleton alone
    | cons next rest ih =>
      intro first alone others
      have behind : ',' ∉ ' ' :: next := fun found =>
        (List.mem_cons.mp found).elim (by decide) (others next (List.mem_cons_self ..))
      have tail := ih (' ' :: next) behind fun item hi => others item (List.mem_cons_of_mem _ hi)
      have moved : ' ' :: listed (next :: rest) = listed ((' ' :: next) :: rest) := by
        cases rest with
        | nil => rw [listed, listed, List.intercalate_singleton, List.intercalate_singleton]
        | cons other rest => rw [listed_cons_cons, listed_cons_cons, List.cons_append]
      rw [listed_cons_cons, moved, List.splitOn_eq_splitOnP, List.splitOnP_append_cons _ _ (by simp),
        ← List.splitOn_eq_splitOnP, ← List.splitOn_eq_splitOnP, tail, List.splitOn_eq_singleton alone]
      rfl
  have trimmed : ∀ item ∈ items, trim item = item := fun item hi =>
    trim_eq (tidy item hi).first (tidy item hi).last
  have kept : ∀ item ∈ items, (!item.isEmpty) = true := fun item hi => by
    simpa using (tidy item hi).nonempty
  cases items with
  | nil => rfl
  | cons first rest =>
    have others : (rest.map (' ' :: ·)).map trim = rest := by
      rw [List.map_map]
      refine (List.map_congr_left fun item hi => ?_).trans (List.map_id _)
      exact (trim_blank_append (s := item) (t := [' ']) (by decide)).trans
        (trimmed item (List.mem_cons_of_mem _ hi))
    rw [splitItems, split rest first (single first (List.mem_cons_self ..)) fun item hi =>
      single item (List.mem_cons_of_mem _ hi), List.map_cons, others,
      trimmed first (List.mem_cons_self ..)]
    exact List.filter_eq_self.mpr kept

/-- Indented items with commas are the items with commas. -/
theorem lays_commaLines (some : items ≠ []) (tidy : ∀ item ∈ items, Tidy item) :
    Lays (commaLines items) [listed items] := by
  have indent : ∀ c ∈ "  ".toList, isBlank c = true := by decide
  induction items with
  | nil => exact absurd rfl some
  | cons first rest ih =>
    have first_tidy := tidy first (List.mem_cons_self ..)
    cases rest with
    | nil =>
      rw [listed, List.intercalate_singleton]
      exact .line _ indent first_tidy
    | cons next rest =>
      have ended : Tidy (first ++ [',']) := first_tidy.append (by decide)
      have others := ih (List.cons_ne_nil _ _) fun item hi => tidy item (List.mem_cons_of_mem _ hi)
      have both := ((Lays.line _ indent ended).append others).join
      rw [List.append_assoc] at both
      rw [listed_cons_cons]
      exact both

/-- Items under a head are the head and the items. -/
theorem lays_itemLines {head : List Char} (head_tidy : Tidy head) (some : items ≠ [])
    (tidy : ∀ item ∈ items, Tidy item) :
    Lays (itemLines head items) [head ++ ' ' :: listed items] := by
  unfold itemLines
  split
  · rename_i item
    rw [listed, List.intercalate_singleton]
    exact .alone (head_tidy.space (tidy item (List.mem_singleton.mpr rfl)))
  · exact ((Lays.alone head_tidy).append (lays_commaLines some tidy)).join

/-- The list of neutral items is neutral. -/
theorem neutral_listed (some : items ≠ []) (neutral : ∀ item ∈ items, Neutral item) :
    Neutral (listed items) := by
  induction items with
  | nil => exact absurd rfl some
  | cons first rest ih =>
    have head := neutral first (List.mem_cons_self ..)
    cases rest with
    | nil =>
      rw [listed, List.intercalate_singleton]
      exact head
    | cons next rest =>
      rw [listed_cons_cons]
      exact head.comma (ih (List.cons_ne_nil _ _) fun item hi => neutral item (List.mem_cons_of_mem _ hi))

end

/-! ## Conditions -/

/-- A condition under a head is the head and the condition. -/
theorem lays_conditionLines (gap head indent : List Char) {s : List Char}
    (gap_blank : ∀ c ∈ gap, isBlank c = true) (head_tidy : Tidy head)
    (blank : ∀ c ∈ indent, isBlank c = true) (h : Neutral s) :
    Lays (conditionLines (gap ++ head) s indent) [head ++ ' ' :: s] := by
  intro r
  have laid := squeeze_broken blank (isChunk_of_mem_chunks h.tidy) h.capitals_of_mem_chunks r
  rw [joined, intercalate_chunks] at laid
  -- Behind the head the condition is squeezed like the text of one line.
  have line := Lays.line gap gap_blank (head_tidy.space h.tidy) r
  have same : squeeze (' ' :: (broken indent (chunks s) ++ r)) = squeeze (' ' :: (s ++ r)) :=
    squeeze_append_congr [' '] (laid.trans (h.tidy.squeeze_append r).symm)
  have whole := squeeze_append_congr ('\n' :: (gap ++ head)) same
  rw [flatMap_conditionLines _ _ h.tidy, ← line]
  simpa using whole

/-- The lines of a join are the join. -/
theorem lays_join {j : Clause.JoinClause} (table : Neutral j.table) (condition : Neutral j.condition) :
    Lays j.lines [j.text] := by
  have kind : Tidy j.kind.name.toList := by cases j.kind <;> decide
  have head : Tidy (j.kind.name.toList ++ ' ' :: ("JOIN".toList ++ ' ' :: j.table)) :=
    kind.space (Tidy.space (by decide) table.tidy)
  have first := Lays.line "  ".toList (by decide) head
  have second := lays_conditionLines "    ".toList "ON".toList "    ".toList (by decide) (by decide)
    (by decide) condition
  have text : j.text = (j.kind.name.toList ++ ' ' :: ("JOIN".toList ++ ' ' :: j.table)) ++
      ' ' :: ("ON".toList ++ ' ' :: j.condition) := by
    simp only [Clause.JoinClause.text, List.append_assoc, List.cons_append]
  rw [text]
  exact (first.append second).join

end QueryWorkbench.Sql
