/-
QueryWorkbench.Proofs.Analysis.ConditionMatch — join conditions are matched as written.

A condition is written as equalities with AND between them (`conditionText`). The pattern for
conditions takes as few characters as possible, so it has to be shown that nothing ends a
condition inside it (`Unended`), and that what comes behind it does (`EndsCondition`). In the text
of a condition exactly its equalities are found (`map_ofMatch_findAll`).
-/
import QueryWorkbench.Proofs.Analysis.Openings
import QueryWorkbench.Proofs.Analysis.TableMatch

namespace QueryWorkbench.Analysis

open Pattern Text

/-! ## Equalities -/

/-- An equality of two columns: on each side a schema, if it is written, a table and a column. -/
structure Equation where
  leftSchema : Option String := none
  leftTable : String
  leftColumn : String
  rightSchema : Option String := none
  rightTable : String
  rightColumn : String
deriving DecidableEq

namespace Equation

/-- The equality that a match has taken. -/
def ofMatch (m : Match Part) : Equation :=
  ⟨partText? m .leftSchema, partText m .leftTable, partText m .leftColumn,
    partText? m .rightSchema, partText m .rightTable, partText m .rightColumn⟩

/-- An equality without schemas, as it is written. -/
def text (e : Equation) : List Char :=
  e.leftTable.toList ++ '.' :: (e.leftColumn.toList ++ ' ' :: '=' :: ' ' ::
    (e.rightTable.toList ++ '.' :: e.rightColumn.toList))

/-- An equality of names, without schemas. -/
structure Named (e : Equation) : Prop where
  leftSchema : e.leftSchema = none
  leftTable : IsName e.leftTable
  leftColumn : IsName e.leftColumn
  rightSchema : e.rightSchema = none
  rightTable : IsName e.rightTable
  rightColumn : IsName e.rightColumn

end Equation

section

variable {before : Option Char} {position : Nat} {w rest : List Char} {slot : Part}

/-- A table in an equality has a dot behind it. -/
theorem outcomes_undotted_eq_nil {q : Pattern Part} (all : ∀ c ∈ w, isWord c = true)
    (edge : rest.head?.any isWord = false) (undotted : rest.head? ≠ some '.') :
    (seq (keep slot word) (seq (char '.') q)).outcomes ⟨before, position, w ++ rest⟩ = [] :=
  outcomes_seq_eq_nil.mpr fun _ ho => outcomes_seq_eq_nil_of_left
    (outcomes_char_eq_nil (head?_ne_of_mem_keep_word all edge undotted ho))

/-- A word and its dot are taken together. -/
theorem rest_of_mem_qualifying (all : ∀ c ∈ w, isWord c = true) {o : Place × Kept Part}
    (h : o ∈ (Pattern.all [keep slot word, char '.']).outcomes
      ⟨before, position, w ++ '.' :: rest⟩) : o.1.rest = rest := by
  obtain ⟨o₁, h₁, o₂, h₂, rfl⟩ := mem_outcomes_seq.mp h
  obtain ⟨o', ho', rfl⟩ := mem_outcomes_keep.mp h₁
  obtain ⟨a, r, -, split, taken, rfl⟩ := mem_outcomes_run ho'
  obtain ⟨t, rfl, rfl⟩ := exists_of_append_eq (by rfl) taken split
  obtain ⟨c, more, split', same, rfl⟩ := mem_outcomes_one h₂
  have dot : c = '.' := by simpa [CharSet.has] using same
  cases t with
  | nil => exact (List.cons.inj split').2.symm
  | cons d t =>
    have inside : isWord d = true := all d (by simp)
    obtain rfl : d = c := (List.cons.inj split').1
    rw [dot] at inside
    exact absurd inside (by decide)

/-- A table in an equality is not taken for its schema. -/
theorem reaches_qualifier {column : List Char} {q : Pattern Part} {next : Part}
    (table_all : ∀ c ∈ w, isWord c = true) (column_all : ∀ c ∈ column, isWord c = true)
    (edge : rest.head?.any isWord = false) (undotted : rest.head? ≠ some '.') :
    Reaches (qualifier slot) (seq (keep next word) (seq (char '.') q))
      ⟨before, position, w ++ '.' :: (column ++ rest)⟩
      ⟨before, position, w ++ '.' :: (column ++ rest)⟩ [] := by
  refine reaches_option fun o ho => ?_
  obtain ⟨⟨b, n, r⟩, parts⟩ := o
  obtain rfl : r = column ++ rest := rest_of_mem_qualifying table_all ho
  exact outcomes_undotted_eq_nil column_all edge undotted

/-- Where no word has a dot behind it there is no equality. -/
theorem outcomes_equality_eq_nil (all : ∀ c ∈ w, isWord c = true)
    (edge : rest.head?.any isWord = false) (undotted : rest.head? ≠ some '.') :
    equality.outcomes ⟨before, position, w ++ rest⟩ = [] := by
  refine outcomes_seq_eq_nil.mpr fun o ho => ?_
  rw [qualifier, outcomes, outcomes_qualifying_eq_nil all edge undotted, List.nil_append] at ho
  obtain rfl := List.mem_singleton.mp ho
  exact outcomes_undotted_eq_nil all edge undotted

/-- An equality is taken as it is written. -/
theorem exists_first_equality {e : Equation} (h : e.Named) (edge : rest.head?.any isWord = false)
    (undotted : rest.head? ≠ some '.') :
    ∃ stop parts, First equality ⟨before, position, e.text ++ rest⟩ stop parts ∧
      stop.position = position + e.text.length ∧
      ∀ start stop, Equation.ofMatch ⟨start, stop, parts⟩ = e := by
  obtain ⟨leftSchema, leftTable, leftColumn, rightSchema, rightTable, rightColumn⟩ := e
  obtain ⟨rfl, lt, lc, rfl, rt, rc⟩ := h
  have text : Equation.text ⟨none, leftTable, leftColumn, none, rightTable, rightColumn⟩ ++ rest =
      leftTable.toList ++ '.' :: (leftColumn.toList ++ ' ' :: '=' :: ' ' ::
        (rightTable.toList ++ '.' :: (rightColumn.toList ++ rest))) := by
    simp only [Equation.text, List.append_assoc, List.cons_append]
  have unblank : (rightTable.toList ++ '.' :: (rightColumn.toList ++ rest)).head?.any isBlank =
      false := head?_isBlank_of_isWord rt.toList_ne_nil rt.isWord _
  rw [text]
  refine ⟨_, _, (reaches_qualifier lt.isWord lc.isWord (by rfl) (by simp)).seq
    ((first_keep_word lt.toList_ne_nil lt.isWord (by rfl)).seq ((first_char '.').seq
    ((first_keep_word lc.toList_ne_nil lc.isWord (by rfl)).seq
    ((first_blanks_space (by rfl)).seq ((first_char '=').seq ((first_blanks_space unblank).seq
    ((reaches_qualifier rt.isWord rc.isWord edge undotted).seq
    ((first_keep_word rt.toList_ne_nil rt.isWord (by rfl)).seq ((first_char '.').seq
    (first_keep_word rc.toList_ne_nil rc.isWord edge)))))))))), ?_, ?_⟩
  · simp only [Equation.text, List.length_append, List.length_cons]
    omega
  · intro start stop
    simp [Equation.ofMatch, partText, partText?, Match.part, Match.part?, Assoc.get?]

end

/-! ## Equalities of a condition -/

/-- Equalities with AND between them, as they are written. -/
def conditionText (first : Equation) (more : List Equation) : List Char :=
  first.text ++ more.flatMap fun e => ' ' :: ("AND".toList ++ ' ' :: e.text)

section

variable {before : Option Char} {position : Nat} {w rest : List Char}

/-- The search for equalities passes over a word without a dot. -/
theorem matchesFrom_undotted (all : ∀ c ∈ w, isWord c = true)
    (edge : rest.head?.any isWord = false) (undotted : rest.head? ≠ some '.') :
    equality.matchesFrom before position (w ++ rest) =
      equality.matchesFrom (w.getLast?.or before) (position + w.length) rest := by
  induction w generalizing before position with
  | nil => rfl
  | cons c w ih =>
    have none := @outcomes_equality_eq_nil before position (c :: w) rest all edge undotted
    rw [List.cons_append] at none ⊢
    rw [matchesFrom_cons none, ih fun d hd => all d (List.mem_cons_of_mem _ hd), getLast?_cons_or,
      List.length_cons, Nat.add_right_comm, Nat.add_assoc]

theorem matchesFrom_space :
    equality.matchesFrom before position (' ' :: rest) =
      equality.matchesFrom (some ' ') (position + 1) rest :=
  matchesFrom_cons (outcomes_equality_eq_nil (w := []) (by simp) (by rfl) (by simp))

/-- The search for equalities finds one that is written. -/
theorem exists_matchesFrom_equality {e : Equation} (h : e.Named)
    (edge : rest.head?.any isWord = false) (undotted : rest.head? ≠ some '.') :
    ∃ b n m, equality.matchesFrom before position (e.text ++ rest) =
      m :: equality.matchesFrom b n rest ∧ Equation.ofMatch m = e := by
  obtain ⟨stop, parts, first, length, reads⟩ :=
    @exists_first_equality before position rest e h edge undotted
  have nonempty : e.text ≠ [] := by
    intro none
    exact h.leftTable.toList_ne_nil (List.append_eq_nil_iff.mp none).1
  exact ⟨_, _, _, matchesFrom_take nonempty first length, reads _ _⟩

/-- Behind AND the search goes on with the next equality. -/
theorem map_ofMatch_matchesFrom {more : List Equation} (named : ∀ e ∈ more, e.Named) :
    (equality.matchesFrom before position
      (more.flatMap fun e => ' ' :: ("AND".toList ++ ' ' :: e.text))).map Equation.ofMatch = more := by
  induction more generalizing before position with
  | nil => rfl
  | cons e more ih =>
    have edge : (more.flatMap fun e => ' ' :: ("AND".toList ++ ' ' :: e.text)).head?.any isWord =
        false := by cases more <;> rfl
    have undotted : (more.flatMap fun e => ' ' :: ("AND".toList ++ ' ' :: e.text)).head? ≠
        some '.' := by cases more <;> simp
    rw [List.flatMap_cons, List.cons_append, List.append_assoc, List.cons_append, matchesFrom_space,
      matchesFrom_undotted (by decide) (by rfl) (by simp), matchesFrom_space]
    obtain ⟨b, n, m, found, reads⟩ :=
      exists_matchesFrom_equality (named e (List.mem_cons_self ..)) edge undotted
    rw [found, List.map_cons, reads, ih fun e he => named e (List.mem_cons_of_mem _ he)]

end

/-- In the text of a condition its equalities are found, and nothing else. -/
theorem map_ofMatch_findAll {first : Equation} {more : List Equation} (first_named : first.Named)
    (named : ∀ e ∈ more, e.Named) :
    (equality.findAll (conditionText first more)).map Equation.ofMatch = first :: more := by
  have edge : (more.flatMap fun e => ' ' :: ("AND".toList ++ ' ' :: e.text)).head?.any isWord =
      false := by cases more <;> rfl
  have undotted : (more.flatMap fun e => ' ' :: ("AND".toList ++ ' ' :: e.text)).head? ≠
      some '.' := by cases more <;> simp
  obtain ⟨b, n, m, found, reads⟩ := exists_matchesFrom_equality first_named edge undotted
  rw [findAll_eq, conditionText, found, List.map_cons, reads, map_ofMatch_matchesFrom named]

/-! ## What ends a condition -/

/-- The words that end a condition. -/
def enders : List String :=
  joinWords ++ ["WHERE", "GROUP", "ORDER", "HAVING", "LIMIT", "UNION", "EXCEPT", "INTERSECT",
    "WINDOW"]

/-- A text that nothing ends before its own end. -/
structure Unended (body : List Char) : Prop where
  lacks : Lacks enders body
  unclosed : ')' ∉ body
  unseparated : ';' ∉ body
  solid : ∃ c, body.getLast? = some c ∧ isBlank c = false

section

variable {before : Option Char} {position : Nat} {body a b r : List Char}

/-- A sign that a text does not have does not come behind blanks inside it. -/
theorem outcomes_blanks_char_eq_nil {c : Char} (absent : c ∉ b)
    (solid : ∃ c, b.getLast? = some c ∧ isBlank c = false) :
    (seq blanks (char (σ := Part) c)).outcomes ⟨before, position, b ++ r⟩ = [] := by
  refine outcomes_seq_eq_nil.mpr fun o ho => ?_
  obtain ⟨blanks, s, split', blank, rfl⟩ := mem_outcomes_greedy ho
  obtain ⟨t, nonempty, rfl, rfl⟩ := exists_of_blanks solid blank split'
  obtain ⟨d, t, rfl⟩ := List.exists_cons_of_ne_nil nonempty
  refine outcomes_char_eq_nil ?_
  rintro ⟨⟩
  exact absent (List.mem_append_right _ (List.mem_cons_self ..))

theorem starts_joinEnd : Starts (seq joinSide (whole (keyword "JOIN"))) enders :=
  (starts_joinSide (starts_whole_keyword (by decide))).mono fun _ => List.mem_append_left _

theorem starts_clauseEnd :
    Starts (σ := Part) (whole (anyOf (keyword "WHERE")
      [all [keyword "GROUP", someBlanks, keyword "BY"],
        all [keyword "ORDER", someBlanks, keyword "BY"], keyword "HAVING", keyword "LIMIT",
        keyword "UNION", keyword "EXCEPT", keyword "INTERSECT", keyword "WINDOW"])) enders := by
  refine starts_whole_anyOf fun q hq => ?_
  have one (k : String) (words : AreWords [k]) (hk : k ∈ enders) :
      Starts (σ := Part) (whole (keyword k)) enders :=
    (starts_whole_keyword words).mono fun j hj => List.mem_singleton.mp hj ▸ hk
  have two (k : String) (words : AreWords [k]) (hk : k ∈ enders) :
      Starts (σ := Part) (whole (all [keyword k, someBlanks, keyword "BY"])) enders :=
    (starts_whole_by words).mono fun j hj => List.mem_singleton.mp hj ▸ hk
  simp only [List.mem_cons, List.not_mem_nil, or_false] at hq
  rcases hq with rfl | rfl | rfl | rfl | rfl | rfl | rfl | rfl | rfl
  · exact one "WHERE" (by decide) (by decide)
  · exact two "GROUP" (by decide) (by decide)
  · exact two "ORDER" (by decide) (by decide)
  · exact one "HAVING" (by decide) (by decide)
  · exact one "LIMIT" (by decide) (by decide)
  · exact one "UNION" (by decide) (by decide)
  · exact one "EXCEPT" (by decide) (by decide)
  · exact one "INTERSECT" (by decide) (by decide)
  · exact one "WINDOW" (by decide) (by decide)

/-- Nothing ends a condition inside its text. -/
theorem outcomes_conditionEnd_eq_nil (h : Unended body) (split : body = a ++ b) (b_ne : b ≠ [])
    (edge : r.head?.any isWord = false) :
    conditionEnd.outcomes ⟨before, position, b ++ r⟩ = [] := by
  have solid : ∃ c, b.getLast? = some c ∧ isBlank c = false := by
    obtain ⟨c, last, unblank⟩ := h.solid
    rw [split, List.getLast?_append, List.getLast?_eq_some_getLast b_ne] at last
    exact ⟨c, by rw [List.getLast?_eq_some_getLast b_ne]; exact last, unblank⟩
  have unclosed : ')' ∉ b := fun hb => h.unclosed (split ▸ List.mem_append_right _ hb)
  have unseparated : ';' ∉ b := fun hb => h.unseparated (split ▸ List.mem_append_right _ hb)
  refine outcomes_or_eq_nil.mpr ⟨?_, outcomes_or_eq_nil.mpr ⟨?_, outcomes_or_eq_nil.mpr
    ⟨outcomes_blanks_char_eq_nil unclosed solid, outcomes_or_eq_nil.mpr
      ⟨outcomes_blanks_char_eq_nil unseparated solid, ?_⟩⟩⟩⟩
  · exact starts_joinEnd.outcomes_someBlanks_eq_nil h.lacks split solid edge
  · exact starts_clauseEnd.outcomes_someBlanks_eq_nil h.lacks split solid edge
  · obtain ⟨c, b, rfl⟩ := List.exists_cons_of_ne_nil b_ne
    rfl

end

/-! ## Behind a condition -/

/-- A text in front of which a condition ends. -/
def EndsCondition (r : List Char) : Prop :=
  r.head?.any isWord = false ∧ ∀ before position, conditionEnd.outcomes ⟨before, position, r⟩ ≠ []

theorem endsCondition_nil : EndsCondition [] := by
  refine ⟨rfl, fun before position => outcomes_anyOf_ne_nil (q := finish) ?_ (by simp [outcomes])⟩
  simp only [List.mem_cons, eq_self, true_or, or_true]

/-- A condition ends in front of the next join. -/
theorem endsCondition_join (kind : JoinKind) (rest : List Char) :
    EndsCondition (' ' :: (kind.name.toList ++ ' ' :: ("JOIN".toList ++ ' ' :: rest))) := by
  refine ⟨rfl, fun before position => outcomes_anyOf_ne_nil (List.mem_cons_self ..) ?_⟩
  have unblank : (kind.name.toList ++ ' ' :: ("JOIN".toList ++ ' ' :: rest)).head?.any isBlank =
      false := by cases kind <;> rfl
  have join_ : First (whole (keyword (σ := Part) "JOIN"))
      ⟨some ' ', position + 1 + kind.name.toList.length + 1, "JOIN".toList ++ ' ' :: rest⟩ _ _ :=
    (first_keyword (by decide)).seq (first_wordEdge (by rfl))
  exact ((first_someBlanks unblank).seq ((first_joinSide kind).seq join_)).ne_nil

/-- The words that clauses behind the joins start with. -/
def clauseWords : List String := ["WHERE", "GROUP BY", "ORDER BY", "LIMIT"]

/-- A condition ends in front of the next clause. -/
theorem endsCondition_clause {k : String} (hk : k ∈ clauseWords) (rest : List Char) :
    EndsCondition (' ' :: (k.toList ++ ' ' :: rest)) := by
  have unblank : (k.toList ++ ' ' :: rest).head?.any isBlank = false := by
    simp only [clauseWords, List.mem_cons, List.not_mem_nil, or_false] at hk
    rcases hk with rfl | rfl | rfl | rfl <;> rfl
  refine ⟨rfl, fun before position => outcomes_anyOf_ne_nil
    (List.mem_cons_of_mem _ (List.mem_cons_self ..)) ?_⟩
  -- The clause ends the condition behind the space.
  have after {q : Pattern Part} (some : q.outcomes ⟨Option.some ' ', position + 1,
      k.toList ++ ' ' :: rest⟩ ≠ []) :
      (seq someBlanks q).outcomes ⟨before, position, ' ' :: (k.toList ++ ' ' :: rest)⟩ ≠ [] := by
    intro none
    exact some (outcomes_seq_eq_nil.mp none _ (List.mem_of_head? (first_someBlanks unblank)))
  refine after ?_
  simp only [clauseWords, List.mem_cons, List.not_mem_nil, or_false] at hk
  rcases hk with rfl | rfl | rfl | rfl
  · exact outcomes_whole_anyOf_ne_nil (q := keyword "WHERE") (by simp)
      (first_keyword (by decide)) (by rfl)
  · have group : First (σ := Part) (all [keyword "GROUP", someBlanks, keyword "BY"])
        ⟨some ' ', position + 1, "GROUP".toList ++ ' ' :: ("BY".toList ++ ' ' :: rest)⟩ _ [] :=
      (first_keyword (by decide)).andThen ((first_someBlanks (by rfl)).andThen
        (first_keyword (by decide)))
    exact outcomes_whole_anyOf_ne_nil
      (by simp only [List.mem_cons, eq_self, true_or, or_true]) group (by rfl)
  · have order : First (σ := Part) (all [keyword "ORDER", someBlanks, keyword "BY"])
        ⟨some ' ', position + 1, "ORDER".toList ++ ' ' :: ("BY".toList ++ ' ' :: rest)⟩ _ [] :=
      (first_keyword (by decide)).andThen ((first_someBlanks (by rfl)).andThen
        (first_keyword (by decide)))
    exact outcomes_whole_anyOf_ne_nil
      (by simp only [List.mem_cons, eq_self, true_or, or_true]) order (by rfl)
  · exact outcomes_whole_anyOf_ne_nil (q := keyword "LIMIT")
      (by simp only [List.mem_cons, eq_self, true_or, or_true]) (first_keyword (by decide)) (by rfl)

/-- The end of a text, or the start of a clause behind the joins. -/
def StartsClause (s : List Char) : Prop :=
  s = [] ∨ ∃ k ∈ clauseWords, ∃ rest, s = ' ' :: (k.toList ++ ' ' :: rest)

theorem StartsClause.ends {s : List Char} (h : StartsClause s) : EndsCondition s := by
  rcases h with rfl | ⟨k, hk, rest, rfl⟩
  · exact endsCondition_nil
  · exact endsCondition_clause hk rest

/-! ## After ON -/

section

variable {before : Option Char} {position : Nat} {body r : List Char}

/-- A condition is taken up to what ends it. -/
theorem exists_first_onCondition (h : Unended body) (ends : EndsCondition r)
    (unblank : (body ++ r).head?.any isBlank = false) (outside : before.any isWord = false) :
    ∃ stop parts, First onCondition ⟨before, position, "ON".toList ++ ' ' :: body ++ r⟩ stop parts ∧
      stop.position = position + ("ON".toList ++ ' ' :: body).length ∧
      ∀ start stop, (⟨start, stop, parts⟩ : Match Part).part .body = body := by
  have nonempty : body ≠ [] := by
    obtain ⟨c, last, -⟩ := h.solid
    rintro rfl
    cases last
  have start : First (wordEdge (σ := Part)) ⟨before, position, "ON".toList ++ ' ' :: (body ++ r)⟩
      ⟨before, position, "ON".toList ++ ' ' :: (body ++ r)⟩ [] :=
    first_wordEdge (atWordEdge_of_head outside (by rfl))
  have taken : Reaches (σ := Part) someLazy (ahead conditionEnd)
      ⟨some ' ', position + "ON".toList.length + 1, body ++ r⟩
      ⟨body.getLast?.or (some ' '), position + "ON".toList.length + 1 + body.length, r⟩ [] :=
    reaches_someLazy nonempty fun a b split _ b_ne before position =>
      outcomes_ahead_eq_nil.mpr (outcomes_conditionEnd_eq_nil h split b_ne ends.1)
  have ended : First (ahead conditionEnd)
      ⟨body.getLast?.or (some ' '), position + "ON".toList.length + 1 + body.length, r⟩
      ⟨body.getLast?.or (some ' '), position + "ON".toList.length + 1 + body.length, r⟩ [] :=
    first_ahead_of_keepsNothing (by repeat' constructor) (ends.2 _ _)
  have kept : Reaches (keep Part.body someLazy) (ahead conditionEnd)
      ⟨some ' ', position + "ON".toList.length + 1, body ++ r⟩ _ _ := taken.keep .body
  rw [List.append_assoc, List.cons_append]
  refine ⟨_, _, start.andThen ((first_keyword (w := "ON".toList) (by decide)).andThen
    ((first_someBlanks unblank).andThen (kept.seq ended))), ?_, ?_⟩
  · show position + "ON".toList.length + 1 + body.length = _
    rw [List.length_append, List.length_cons]
    omega
  · intro start stop
    simp [Match.part, Match.part?, Assoc.get?, Span.chars]

end

/-! ## The text of a condition -/

namespace Equation

variable {e : Equation} (h : e.Named)
include h

theorem Named.lacks {ks : List String} (sub : ∀ k ∈ ks, k ∈ patternWords) : Lacks ks e.text := by
  simp only [text, lacks_append_cons (by decide : isWord '.' = false),
    lacks_append_space, lacks_cons (by decide : isWord '=' = false),
    lacks_cons (by decide : isWord ' ' = false)]
  exact ⟨h.leftTable.lacks sub, h.leftColumn.lacks sub, h.rightTable.lacks sub,
    h.rightColumn.lacks sub⟩

theorem Named.not_mem {c : Char} (hc : isWord c = false) (dot : c ≠ '.') (space : c ≠ ' ')
    (sign : c ≠ '=') : c ∉ e.text := by
  have absent {s : String} (hs : IsName s) : c ∉ s.toList := by
    intro member
    rw [hs.isWord c member] at hc
    cases hc
  simp [text, absent h.leftTable, absent h.leftColumn, absent h.rightTable, absent h.rightColumn,
    dot, space, sign]

theorem Named.solid : ∃ c, e.text.getLast? = some c ∧ isBlank c = false := by
  have nonempty := h.rightColumn.toList_ne_nil
  have split : e.text = (e.leftTable.toList ++ '.' :: (e.leftColumn.toList ++ ' ' :: '=' :: ' ' ::
      (e.rightTable.toList ++ ['.']))) ++ e.rightColumn.toList := by
    simp [text]
  refine ⟨e.rightColumn.toList.getLast nonempty, ?_, ?_⟩
  · rw [split, List.getLast?_append, List.getLast?_eq_some_getLast nonempty]
    rfl
  · exact not_isBlank_of_isWord (h.rightColumn.isWord _ (List.getLast_mem nonempty))

end Equation

section

variable {first : Equation} {more : List Equation} (first_named : first.Named)
  (named : ∀ e ∈ more, e.Named)
include first_named

theorem head?_conditionText (r : List Char) :
    (conditionText first more ++ r).head?.any isBlank = false := by
  simp only [conditionText, Equation.text, List.append_assoc]
  exact head?_isBlank_of_isWord first_named.leftTable.toList_ne_nil first_named.leftTable.isWord _

include named

theorem lacks_conditionText {ks : List String} (sub : ∀ k ∈ ks, k ∈ patternWords)
    (other : Lacks ks "AND".toList) : Lacks ks (conditionText first more) := by
  induction more generalizing first with
  | nil =>
    rw [conditionText, List.flatMap_nil, List.append_nil]
    exact first_named.lacks sub
  | cons e more ih =>
    have tail := ih (named e (List.mem_cons_self ..)) fun e he => named e (List.mem_cons_of_mem _ he)
    rw [conditionText] at tail
    rw [conditionText, List.flatMap_cons, List.cons_append, List.append_assoc, List.cons_append,
      lacks_append_space, lacks_append_space]
    exact ⟨first_named.lacks sub, other, tail⟩

/-- Nothing ends the text of a condition inside it. -/
theorem unended_conditionText : Unended (conditionText first more) := by
  have sub : ∀ k ∈ enders, k ∈ patternWords := by decide
  have absent (c : Char) (hc : isWord c = false) (dot : c ≠ '.') (space : c ≠ ' ') (sign : c ≠ '=') :
      c ∉ conditionText first more := by
    have letters : c ∉ "AND".toList := by
      intro member
      have all : ∀ d ∈ "AND".toList, isWord d = true := by decide
      rw [all c member] at hc
      cases hc
    rw [conditionText, List.mem_append, List.mem_flatMap]
    rintro (member | ⟨e, he, member⟩)
    · exact first_named.not_mem hc dot space sign member
    · rw [List.mem_cons, List.mem_append, List.mem_cons] at member
      rcases member with same | member | same | member
      · exact space same
      · exact letters member
      · exact space same
      · exact (named e he).not_mem hc dot space sign member
  refine ⟨lacks_conditionText first_named named sub (by decide), ?_, ?_, ?_⟩
  · exact absent ')' (by decide) (by decide) (by decide) (by decide)
  · exact absent ';' (by decide) (by decide) (by decide) (by decide)
  · rcases List.eq_nil_or_concat more with rfl | ⟨more, e, rfl⟩
    · rw [conditionText, List.flatMap_nil, List.append_nil]
      exact first_named.solid
    · obtain ⟨c, last, unblank⟩ := (named e (by simp)).solid
      refine ⟨c, ?_, unblank⟩
      simp [conditionText, List.getLast?_append, List.getLast?_cons, last]

end

end QueryWorkbench.Analysis
