/-
QueryWorkbench.Proofs.Analysis.SelectText — what analysis finds in one plain SELECT.

`SelectText` is a scrubbed text with one FROM and joins behind it, all tables with aliases and all
conditions equalities; what is selected and what follows the joins may be anything that lacks the
words of tables and conditions. The three searches of the analysis go over such a text part by
part: the tables found are those that are written (`scanStatement_chars`) and so are the equalities
(`joinsOf_chars`).
-/
import QueryWorkbench.Proofs.Analysis.ConditionMatch

namespace QueryWorkbench.Analysis

open Pattern Text

/-! ## Parts of the text -/

/-- A table that is brought in: its schema, its name and its alias. -/
structure Entrant where
  schema : Option String
  table : String
  aliasName : String

namespace Entrant

/-- A table with its alias, as it is written. -/
def text (t : Entrant) : List Char := tableText t.schema t.table t.aliasName

/-- What a scan comes across. -/
def event (t : Entrant) : Event := .mentioned t.schema t.table (some t.aliasName)

/-- A table brought in by names. -/
structure Named (t : Entrant) : Prop where
  schema : ∀ s ∈ t.schema, IsName s
  table : IsName t.table
  aliasName : IsName t.aliasName

theorem Named.lacks {t : Entrant} (h : t.Named) {ks : List String}
    (sub : ∀ k ∈ ks, k ∈ patternWords) (other : Lacks ks "AS".toList) : Lacks ks t.text := by
  obtain ⟨schema, table, aliasName⟩ := t
  obtain ⟨hs, ht, ha⟩ := h
  have named : Lacks ks (fullName schema table).toList := by
    cases schema with
    | none => exact ht.lacks sub
    | some s =>
      rw [fullName, String.toList_append, String.toList_append, List.append_assoc]
      exact (lacks_append_cons (by decide)).mpr ⟨(hs s rfl).lacks sub, ht.lacks sub⟩
  rw [text, tableText, lacks_append_space, lacks_append_space]
  exact ⟨named, other, ha.lacks sub⟩

end Entrant

/-- A join: its kind, the table that it brings in, and the equalities of its condition. -/
structure JoinText where
  kind : JoinKind
  target : Entrant
  first : Equation
  more : List Equation

namespace JoinText

/-- A join up to its condition, as it is written. -/
def head (j : JoinText) : List Char :=
  j.kind.name.toList ++ ' ' :: ("JOIN".toList ++ ' ' :: j.target.text)

/-- The condition of a join, as it is written. -/
def condition (j : JoinText) : List Char := conditionText j.first j.more

/-- A join, as it is written behind something. -/
def text (j : JoinText) : List Char :=
  ' ' :: (j.head ++ ' ' :: ("ON".toList ++ ' ' :: j.condition))

/-- All equalities of a join. -/
def equations (j : JoinText) : List Equation := j.first :: j.more

/-- A join made of names. -/
structure Named (j : JoinText) : Prop where
  target : j.target.Named
  equations : ∀ e ∈ j.equations, e.Named

namespace Named

variable {j : JoinText} (h : j.Named)
include h

theorem first : j.first.Named := h.equations _ (List.mem_cons_self ..)

theorem more : ∀ e ∈ j.more, e.Named := fun e he => h.equations e (List.mem_cons_of_mem _ he)

theorem lacks_head {ks : List String} (sub : ∀ k ∈ ks, k ∈ patternWords)
    (other : Lacks ks "AS JOIN INNER LEFT RIGHT FULL".toList) : Lacks ks j.head := by
  have split : "AS JOIN INNER LEFT RIGHT FULL".toList = "AS".toList ++ ' ' :: ("JOIN".toList ++
      ' ' :: ("INNER".toList ++ ' ' :: ("LEFT".toList ++ ' ' :: ("RIGHT".toList ++
        ' ' :: "FULL".toList)))) := by decide
  simp only [split, lacks_append_space] at other
  obtain ⟨as_, join_, inner, left, right, full⟩ := other
  rw [head, lacks_append_space, lacks_append_space]
  refine ⟨?_, join_, h.target.lacks sub as_⟩
  cases j.kind with
  | inner => exact inner
  | left => exact left
  | right => exact right
  | full => exact full

theorem lacks_condition {ks : List String} (sub : ∀ k ∈ ks, k ∈ patternWords)
    (other : Lacks ks "AND".toList) : Lacks ks j.condition :=
  lacks_conditionText h.first h.more sub other

end Named

end JoinText

/-- One SELECT with a FROM, some joins, and what follows them. -/
structure SelectText where
  selected : List Char
  source : Entrant
  joins : List JoinText
  tail : List Char

namespace SelectText

/-- What stands before FROM. -/
def front (t : SelectText) : List Char := "SELECT".toList ++ ' ' :: t.selected

/-- FROM with its table. -/
def origin (t : SelectText) : List Char := "FROM".toList ++ ' ' :: t.source.text

/-- What stands behind the table of FROM. -/
def back (t : SelectText) : List Char := t.joins.flatMap JoinText.text ++ t.tail

/-- The whole text. -/
def chars (t : SelectText) : List Char := t.front ++ ' ' :: (t.origin ++ t.back)

/-- A text whose names are names, and that has no table and no condition but those of its FROM
and its joins. -/
structure WellFormed (t : SelectText) : Prop where
  balanced : Balanced t.selected
  selected : Lacks openers t.selected
  source : t.source.Named
  joins : ∀ j ∈ t.joins, j.Named
  tail : Lacks openers t.tail
  clause : StartsClause t.tail

theorem WellFormed.ends {t : SelectText} (h : t.WellFormed) : EndsCondition t.tail :=
  h.clause.ends

end SelectText

/-! ## The searches, part by part -/

theorem endsCondition_joins {joins : List JoinText} {tail : List Char} (ends : EndsCondition tail) :
    EndsCondition (joins.flatMap JoinText.text ++ tail) := by
  cases joins with
  | nil => exact ends
  | cons j rest =>
    rw [List.flatMap_cons, JoinText.text, JoinText.head]
    simp only [List.append_assoc, List.cons_append]
    exact endsCondition_join j.kind _

theorem lacks_joins {ks : List String} {joins : List JoinText} {tail : List Char}
    (ends : EndsCondition tail) (each : ∀ j ∈ joins, Lacks ks j.text) (last : Lacks ks tail) :
    Lacks ks (joins.flatMap JoinText.text ++ tail) := by
  induction joins with
  | nil => exact last
  | cons j rest ih =>
    rw [List.flatMap_cons, List.append_assoc, lacks_append (endsCondition_joins ends).1]
    exact ⟨each j (List.mem_cons_self ..), ih fun k hk => each k (List.mem_cons_of_mem _ hk)⟩

section

variable {α : Type} {p : Pattern Part} {ks : List String} {before : Option Char} {position : Nat}

/-- A search that takes one part of each join, and nothing else behind FROM. -/
theorem map_matchesFrom_joins (opens : Opens p ks) (skipped taken left : JoinText → List Char)
    (read : Match Part → α) (value : JoinText → α) {joins : List JoinText} {tail : List Char}
    (split : ∀ j ∈ joins, j.text = skipped j ++ ' ' :: (taken j ++ left j))
    (skips : ∀ j ∈ joins, Lacks ks (skipped j)) (leaves : ∀ j ∈ joins, Lacks ks (left j))
    (nonempty : ∀ j ∈ joins, taken j ≠ [])
    (takes : ∀ j ∈ joins, ∀ position r, EndsCondition r →
      (left j ++ r).head?.any isWord = false ∧ ∃ stop parts,
        First p ⟨some ' ', position, taken j ++ (left j ++ r)⟩ stop parts ∧
        stop.position = position + (taken j).length ∧
        ∀ start stop, read ⟨start, stop, parts⟩ = value j)
    (last : Lacks ks tail) (ends : EndsCondition tail) :
    (p.matchesFrom before position (joins.flatMap JoinText.text ++ tail)).map read =
      joins.map value := by
  induction joins generalizing before position with
  | nil =>
    rw [List.flatMap_nil, List.nil_append, opens.matchesFrom_eq_nil last]
    rfl
  | cons j rest ih =>
    have first : j ∈ j :: rest := List.mem_cons_self ..
    have others {k : JoinText} (hk : k ∈ rest) : k ∈ j :: rest := List.mem_cons_of_mem _ hk
    have next : EndsCondition (rest.flatMap JoinText.text ++ tail) := endsCondition_joins ends
    have ih := fun before position => @ih before position (fun k hk => split k (others hk))
      (fun k hk => skips k (others hk)) (fun k hk => leaves k (others hk))
      (fun k hk => nonempty k (others hk)) fun k hk => takes k (others hk)
    rw [List.flatMap_cons, List.append_assoc, split j first, List.append_assoc, List.cons_append,
      List.append_assoc, opens.matchesFrom_append (skips j first) (by rfl),
      opens.matchesFrom_edge (by decide)]
    obtain ⟨edge, stop, parts, match_, length, reads⟩ := takes j first
      (position + (skipped j).length + 1) _ next
    rw [matchesFrom_take (nonempty j first) match_ length, List.map_cons, reads,
      opens.matchesFrom_append (leaves j first) next.1, ih, List.map_cons]

end

/-- No table comes behind a comma where a text ends or goes on with a word. -/
theorem commaTables_of_words {here : Place}
    (words : here.rest = [] ∨ ∃ c r, here.rest = ' ' :: c :: r ∧ isWord c = true) (fuel : Nat) :
    commaTables fuel here = [] := by
  have absent : commaTable.outcomes here = [] := by
    refine outcomes_seq_eq_nil.mpr fun o ho => outcomes_seq_eq_nil_of_left ?_
    obtain ⟨a, s, split, blank, rfl⟩ := mem_outcomes_greedy ho
    refine outcomes_char_eq_nil ?_
    rcases words with none | ⟨c, r, some, inside⟩
    · rw [none] at split
      rw [(List.append_eq_nil_iff.mp split.symm).2]
      simp
    · have unblank : (c :: r).head?.any isBlank = false := not_isBlank_of_isWord inside
      have split : [' '] ++ c :: r = a ++ s := by rw [← split, some]; rfl
      obtain ⟨b, joined, rfl⟩ := exists_of_append_eq unblank blank split
      cases b with
      | nil =>
        rintro ⟨⟩
        exact absurd inside (by decide)
      | cons d b =>
        have space : d ∈ [' '] := joined ▸ List.mem_append_right _ (List.mem_cons_self ..)
        obtain rfl := List.mem_singleton.mp space
        simp
  cases fuel with
  | zero => rfl
  | succ fuel => rw [commaTables, matchAt?_eq_none absent]

/-! ## What the searches find -/

namespace SelectText

variable {t : SelectText} (h : t.WellFormed)
include h

theorem WellFormed.ends_back : EndsCondition t.back := endsCondition_joins h.ends

theorem WellFormed.lacks_front {ks : List String} (sub : ∀ k ∈ ks, k ∈ openers)
    (other : Lacks ks "SELECT".toList) : Lacks ks t.front :=
  lacks_append_space.mpr ⟨other, h.selected.mono sub⟩

theorem WellFormed.lacks_back {ks : List String} (sub : ∀ k ∈ ks, k ∈ openers)
    (other : Lacks ks "AS JOIN INNER LEFT RIGHT FULL".toList) (and_ : Lacks ks "AND".toList)
    (on : Lacks ks "ON".toList) : Lacks ks t.back := by
  have words : ∀ k ∈ ks, k ∈ patternWords := fun k hk =>
    (by decide : ∀ k ∈ openers, k ∈ patternWords) k (sub k hk)
  refine lacks_joins h.ends (fun j hj => ?_) (h.tail.mono sub)
  rw [JoinText.text, lacks_space, lacks_append_space,
    lacks_append_space]
  exact ⟨(h.joins j hj).lacks_head words other, on, (h.joins j hj).lacks_condition words and_⟩

/-- One table is found after FROM. -/
theorem exists_findAll_fromTable :
    ∃ m, fromTable.findAll t.chars = [m] ∧ mention m = t.source.event ∧
      m.start.position = (t.front ++ [' ']).length ∧ m.stop.rest = t.back := by
  have before_lacks : Lacks ["FROM"] t.front := h.lacks_front (by decide) (by decide)
  have behind_lacks : Lacks ["FROM"] t.back :=
    h.lacks_back (by decide) (by decide) (by decide) (by decide)
  obtain ⟨stop, parts, first, length, rest, reads⟩ :=
    @exists_first_fromTable t.source.schema t.source.table t.source.aliasName h.source.schema
      h.source.table h.source.aliasName (some ' ') (0 + t.front.length + 1) t.back (by rfl)
      h.ends_back.1
  refine ⟨⟨⟨some ' ', 0 + t.front.length + 1, t.origin ++ t.back⟩, stop, parts⟩, ?_,
    reads _ _, ?_, rest⟩
  · rw [findAll_eq, chars, opens_fromTable.matchesFrom_append before_lacks (by rfl),
      opens_fromTable.matchesFrom_edge (by decide),
      matchesFrom_take (w := t.origin) (by simp [origin]) first length,
      opens_fromTable.matchesFrom_eq_nil behind_lacks]
  · simp

/-- The tables found after JOIN are those of the joins. -/
theorem map_mention_findAll_joinTable :
    (joinTable.findAll t.chars).map mention = t.joins.map (·.target.event) := by
  have words : ∀ k ∈ joinWords, k ∈ patternWords := by decide
  have before_lacks : Lacks joinWords (t.front ++ ' ' :: t.origin) :=
    lacks_append_space.mpr ⟨h.lacks_front (by decide) (by decide),
      lacks_append_space.mpr ⟨by decide, h.source.lacks words (by decide)⟩⟩
  have text : t.chars = (t.front ++ ' ' :: t.origin) ++ t.back := by
    simp only [chars, List.append_assoc, List.cons_append]
  rw [findAll_eq, text, opens_joinTable.matchesFrom_append before_lacks h.ends_back.1, back]
  refine map_matchesFrom_joins opens_joinTable (fun _ => []) JoinText.head
    (fun j => ' ' :: ("ON".toList ++ ' ' :: j.condition)) mention (·.target.event)
    (fun j _ => rfl) (fun j _ => lacks_nil) (fun j hj => ?_) (fun j _ => ?_)
    (fun j hj position r ends => ?_) (h.tail.mono (by decide)) h.ends
  · exact lacks_space.mpr (lacks_append_space.mpr
      ⟨by decide, (h.joins j hj).lacks_condition words (by decide)⟩)
  · simp [JoinText.head]
  · obtain ⟨stop, parts, first, length, -, reads⟩ :=
      @exists_first_joinTable j.target.schema j.target.table j.target.aliasName
        (h.joins j hj).target.schema (h.joins j hj).target.table (h.joins j hj).target.aliasName
        (some ' ') position (' ' :: ("ON".toList ++ ' ' :: j.condition) ++ r) j.kind (by rfl)
        (by rfl)
    exact ⟨by rfl, stop, parts, first, length, reads⟩

/-- The conditions found after ON are those of the joins. -/
theorem map_body_findAll_onCondition :
    (onCondition.findAll t.chars).map (·.part .body) = t.joins.map JoinText.condition := by
  have words : ∀ k ∈ ["ON"], k ∈ patternWords := by decide
  have before_lacks : Lacks ["ON"] (t.front ++ ' ' :: t.origin) :=
    lacks_append_space.mpr ⟨h.lacks_front (by decide) (by decide),
      lacks_append_space.mpr ⟨by decide, h.source.lacks words (by decide)⟩⟩
  have text : t.chars = (t.front ++ ' ' :: t.origin) ++ t.back := by
    simp only [chars, List.append_assoc, List.cons_append]
  rw [findAll_eq, text, opens_onCondition.matchesFrom_append before_lacks h.ends_back.1, back]
  refine map_matchesFrom_joins opens_onCondition (fun j => ' ' :: j.head)
    (fun j => "ON".toList ++ ' ' :: j.condition) (fun _ => []) (·.part .body) JoinText.condition
    (fun j _ => ?_) (fun j hj => ?_) (fun j _ => lacks_nil) (fun j _ => by simp)
    (fun j hj position r ends => ?_) (h.tail.mono (by decide)) h.ends
  · simp [JoinText.text]
  · exact lacks_space.mpr ((h.joins j hj).lacks_head words (by decide))
  · have unended : Unended j.condition :=
      unended_conditionText (h.joins j hj).first (h.joins j hj).more
    obtain ⟨stop, parts, first, length, reads⟩ :=
      @exists_first_onCondition (some ' ') position j.condition r unended ends
        (head?_conditionText (h.joins j hj).first r) (by rfl)
    exact ⟨ends.1, stop, parts, first, length, reads⟩

omit h in
/-- What stands behind the table of FROM is nothing, or a space and a word. -/
theorem back_cases (clause : StartsClause t.tail) :
    t.back = [] ∨ ∃ c rest, t.back = ' ' :: c :: rest ∧ isWord c = true := by
  rw [back]
  cases t.joins with
  | nil =>
    rcases clause with none | ⟨k, hk, rest, some⟩
    · exact Or.inl (by simp [none])
    · refine Or.inr ?_
      rw [some]
      simp only [clauseWords, List.mem_cons, List.not_mem_nil, or_false] at hk
      rcases hk with rfl | rfl | rfl | rfl <;> exact ⟨_, _, rfl, by decide⟩
  | cons j rest =>
    refine Or.inr ?_
    rw [List.flatMap_cons, JoinText.text, JoinText.head]
    cases j.kind <;> exact ⟨_, _, rfl, by decide⟩

/-- No table comes behind a comma. -/
theorem commaTables_back (fuel : Nat) {here : Place} (rest : here.rest = t.back) :
    commaTables fuel here = [] :=
  commaTables_of_words (rest ▸ back_cases h.clause) fuel

/-! ## Scans and joins -/

omit h in
/-- A pass that stays within its limit is not cut short. -/
theorem bounded_of_le {limit : Int} {p : Pattern Part} {text : List Char}
    (le : ((p.findAll text).length : Int) ≤ limit) : bounded limit p text = (p.findAll text, []) := by
  have le : (p.findAll text).length ≤ limit.toNat := by omega
  rw [bounded, List.take_of_length_le le, if_neg (Nat.not_lt.mpr le)]

section

variable {limit : Int} (some : 1 ≤ limit) (enough : (t.joins.length : Int) ≤ limit)
include some enough

theorem surface_chars :
    surface limit t.chars = t.source.event :: t.joins.map (·.target.event) := by
  obtain ⟨m, found, mentions, position, rest⟩ := exists_findAll_fromTable h
  have joined := map_mention_findAll_joinTable h
  have joins_le : ((joinTable.findAll t.chars).length : Int) ≤ limit := by
    rw [← List.length_map (f := mention), joined, List.length_map]
    exact enough
  have froms_le : ((fromTable.findAll t.chars).length : Int) ≤ limit := by
    rw [found]
    exact some
  have balanced : Balanced (t.front ++ [' ']) := by
    have keyword : Balanced "SELECT".toList := balanced_of_calm (by decide)
    have space : Balanced [' '] := balanced_of_calm (by decide)
    refine (keyword.append ?_).append space
    exact .calm (by decide) (by decide) h.balanced
  have outside : callPositions t.chars [(m.start.position : Int)] = [] := by
    have text : t.chars = (t.front ++ [' ']) ++ (t.origin ++ t.back) := by
      simp only [chars, List.append_assoc, List.singleton_append]
    rw [position, text]
    exact callPositions_eq_nil balanced
  have alone : fromTables m = [t.source.event] := by
    rw [fromTables, mentions, commaTables_back h _ rest]
  rw [surface, bounded_of_le froms_le, bounded_of_le joins_le, found]
  simp [outside, alone, joined]

/-- A scan comes across the table of FROM and those of the joins, in this order. -/
theorem scanStatement_chars (maxDepth : Int) :
    scanStatement limit maxDepth t.chars = t.source.event :: t.joins.map (·.target.event) := by
  have text : t.chars = "SELECT".toList ++ (' ' :: (t.selected ++ ' ' :: (t.origin ++ t.back))) :=
    List.append_assoc "SELECT".toList (' ' :: t.selected) _
  have lacks : Lacks ["SELECT"] (' ' :: (t.selected ++ ' ' :: (t.origin ++ t.back))) := by
    have back : Lacks ["SELECT"] t.back :=
      h.lacks_back (by decide) (by decide) (by decide) (by decide)
    have source : Lacks ["SELECT"] t.source.text := h.source.lacks (by decide) (by decide)
    rw [lacks_space, lacks_append_space, lacks_append h.ends_back.1, origin,
      lacks_append_space]
    exact ⟨h.selected.mono (by decide), ⟨by decide, source⟩, back⟩
  have no_with : withHead.matchAt? (Place.start t.chars) = none := by
    rw [text]
    exact matchAt?_eq_none (by rfl)
  have flat : nestedQueries limit t.chars = ([], []) := by
    rw [text]
    exact nestedQueries_eq_nil limit (by decide) lacks
  rw [scanStatement, no_with]
  cases maxDepth.toNat with
  | zero => simp [scan, flat, surface_chars h some enough]
  | succ levels => simp [scan, flat, surface_chars h some enough]

end

end SelectText

end QueryWorkbench.Analysis
