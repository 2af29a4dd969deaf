/-
QueryWorkbench.Proofs.Analysis.TableMatch — tables after FROM and JOIN are matched as written.

A table is written with its alias as `t AS a` (`tableText`). After FROM, and after JOIN with the
side of the join in front, the first way to match goes over just that text and keeps the schema,
the table and the alias (`exists_first_fromTable`, `exists_first_joinTable`).
-/
import QueryWorkbench.Analysis.Report
import QueryWorkbench.Proofs.Pattern.Finding
import QueryWorkbench.Query.Basic

namespace QueryWorkbench.Analysis

open Pattern Text

/-! ## Names -/

/-- The words that the patterns are made of. -/
def patternWords : List String := reservedWords ++ ["FROM", "BY", "EXISTS", "RECURSIVE"]

/-- In ASCII, texts that differ in small letters do not spell each other. -/
theorem not_spells_of_lower_ne {k s : String} (word : ∀ c ∈ k.toList, c.toNat < 128)
    (ascii : ∀ c ∈ s.toList, c.toNat < 128) (other : lower s ≠ lower k) : ¬ Spells k s.toList := by
  intro spelled
  have letters : s.toList.map keywordLetter = s.toList.map Char.toLower :=
    List.map_congr_left fun c hc => keywordLetter_of_ascii (ascii c hc)
  apply other
  rw [lower, lower, lowerChars_of_ascii ascii, lowerChars_of_ascii word, ← letters, spelled]

/-- A name in ASCII that no pattern takes for a keyword. -/
structure IsName (s : String) : Prop where
  ne_empty : s ≠ ""
  ascii : ∀ c ∈ s.toList, c.toNat < 128
  isWord : ∀ c ∈ s.toList, Text.isWord c = true
  free : ∀ k ∈ patternWords, lower s ≠ lower k

instance (s : String) : Decidable (IsName s) :=
  decidable_of_iff (s ≠ "" ∧ (∀ c ∈ s.toList, c.toNat < 128) ∧
      (∀ c ∈ s.toList, Text.isWord c = true) ∧ ∀ k ∈ patternWords, lower s ≠ lower k)
    ⟨fun ⟨a, b, c, d⟩ => ⟨a, b, c, d⟩, fun ⟨a, b, c, d⟩ => ⟨a, b, c, d⟩⟩

namespace IsName

variable {s : String} (h : IsName s)
include h

theorem toList_ne_nil : s.toList ≠ [] := fun none => h.ne_empty (String.toList_eq_nil_iff.mp none)

theorem not_spells {k : String} (hk : k ∈ patternWords) : ¬ Spells k s.toList := by
  have words : ∀ k ∈ patternWords, ∀ c ∈ k.toList, c.toNat < 128 := by decide
  exact not_spells_of_lower_ne (words k hk) h.ascii (h.free k hk)

theorem lacks {ks : List String} (sub : ∀ k ∈ ks, k ∈ patternWords) : Lacks ks s.toList :=
  lacks_of_all h.isWord fun k hk => h.not_spells (sub k hk)

end IsName

/-! ## Words in front of a pattern -/

section

variable {before : Option Char} {position : Nat} {w rest : List Char} {slot : Part}

/-- A part of the text from a place on. -/
def spanAt (before : Option Char) (position : Nat) (w rest : List Char) : Span :=
  ⟨⟨before, position, w ++ rest⟩, w.length⟩

@[simp] theorem chars_spanAt : (spanAt before position w rest).chars = w := by
  simp [spanAt, Span.chars]

theorem first_keep_word (nonempty : w ≠ []) (all : ∀ c ∈ w, isWord c = true)
    (edge : rest.head?.any isWord = false) :
    First (keep slot word) ⟨before, position, w ++ rest⟩
      ⟨w.getLast?.or before, position + w.length, rest⟩
      [(slot, spanAt before position w rest)] := by
  have taken : First (keep slot word) ⟨before, position, w ++ rest⟩
      ⟨w.getLast?.or before, position + w.length, rest⟩
      [(slot, ⟨⟨before, position, w ++ rest⟩, position + w.length - position⟩)] :=
    (first_word nonempty all edge).keep slot
  rwa [Nat.add_sub_cancel_left] at taken

/-- No part of a word has a dot behind it if the word has none. -/
theorem head?_ne_of_mem_keep_word (all : ∀ c ∈ w, isWord c = true)
    (edge : rest.head?.any isWord = false) (undotted : rest.head? ≠ some '.')
    {o : Place × Kept Part} (h : o ∈ (keep slot word).outcomes ⟨before, position, w ++ rest⟩) :
    o.1.rest.head? ≠ some '.' := by
  obtain ⟨o', ho', rfl⟩ := mem_outcomes_keep.mp h
  obtain ⟨a, r, -, split, taken, rfl⟩ := mem_outcomes_run ho'
  obtain ⟨t, rfl, rfl⟩ := exists_of_append_eq edge taken split
  cases t with
  | nil => exact undotted
  | cons c t =>
    have inside : isWord c = true := all c (by simp)
    rintro ⟨⟩
    exact absurd inside (by decide)

/-- A word qualifies nothing without a dot behind it. -/
theorem outcomes_qualifying_eq_nil (all : ∀ c ∈ w, isWord c = true)
    (edge : rest.head?.any isWord = false) (undotted : rest.head? ≠ some '.') :
    (Pattern.all [keep slot word, char '.']).outcomes ⟨before, position, w ++ rest⟩ = [] :=
  outcomes_seq_eq_nil.mpr fun _ ho =>
    outcomes_char_eq_nil (head?_ne_of_mem_keep_word all edge undotted ho)

theorem first_qualifying (nonempty : w ≠ []) (all : ∀ c ∈ w, isWord c = true) :
    First (Pattern.all [keep slot word, char '.']) ⟨before, position, w ++ '.' :: rest⟩
      ⟨some '.', position + w.length + 1, rest⟩
      [(slot, spanAt before position w ('.' :: rest))] :=
  (first_keep_word nonempty all (by rfl)).seq (first_char '.')

end

/-! ## A table and its alias -/

/-- A table with its alias, as it is written. -/
def tableText (schema : Option String) (table aliasName : String) : List Char :=
  (fullName schema table).toList ++ ' ' :: ("AS".toList ++ ' ' :: aliasName.toList)

section

variable {schema : Option String} {table aliasName : String}
  (hs : ∀ s ∈ schema, IsName s) (ht : IsName table) (ha : IsName aliasName)
  {before : Option Char} {position : Nat} {rest : List Char}

omit ht ha in
/-- A name is none of the keywords that a table cannot be. -/
theorem first_notAhead_name {name : String} (h : IsName name) (edge : rest.head?.any isWord = false)
    {k : String} {ks : List String} (words : AreWords (k :: ks))
    (sub : ∀ j ∈ k :: ks, j ∈ patternWords) :
    First (notAhead (σ := Part) (whole (anyKeyword (k :: ks)))) ⟨before, position, name.toList ++ rest⟩
      ⟨before, position, name.toList ++ rest⟩ [] := by
  refine first_notAhead (outcomes_whole_eq_nil words fun j hj => ?_)
  rw [leading_append_of_all h.isWord edge]
  exact h.not_spells (sub j hj)

include hs ht in
/-- A table is taken with its schema, if it has one. -/
theorem exists_first_tableName (edge : rest.head?.any isWord = false)
    (undotted : rest.head? ≠ some '.') :
    ∃ stop parts, First tableName ⟨before, position, (fullName schema table).toList ++ rest⟩ stop
        parts ∧
      stop.position = position + (fullName schema table).toList.length ∧ stop.rest = rest ∧
      Assoc.get? .inner parts = none ∧
      (Assoc.get? .outer parts).map (fun s => String.ofList s.chars) = schema ∧
      (Assoc.get? .table parts).map (fun s => String.ofList s.chars) = some table ∧
      Assoc.get? .aliasName parts = none := by
  have words : AreWords ["SELECT", "LATERAL"] := by decide
  have sub : ∀ j ∈ ["SELECT", "LATERAL"], j ∈ patternWords := by decide
  cases schema with
  | none =>
    have unqualified (slot : Part) : First (qualifier slot) ⟨before, position, table.toList ++ rest⟩
        ⟨before, position, table.toList ++ rest⟩ [] :=
      first_option_of_nil (outcomes_qualifying_eq_nil ht.isWord edge undotted)
    refine ⟨_, _, (first_notAhead_name ht edge words sub).seq ((unqualified .outer).seq
      ((unqualified .inner).seq (first_keep_word ht.toList_ne_nil ht.isWord edge))), rfl, rfl, ?_⟩
    simp [Assoc.get?]
  | some s =>
    have hs : IsName s := hs s rfl
    have text : (fullName (some s) table).toList ++ rest =
        s.toList ++ '.' :: (table.toList ++ rest) := by
      simp [fullName]
    have length : (fullName (some s) table).toList.length =
        s.toList.length + 1 + table.toList.length := by
      simp only [fullName, String.toList_append, List.length_append]
      rfl
    have unqualified : First (qualifier .inner)
        ⟨some '.', position + s.toList.length + 1, table.toList ++ rest⟩
        ⟨some '.', position + s.toList.length + 1, table.toList ++ rest⟩ [] :=
      first_option_of_nil (outcomes_qualifying_eq_nil ht.isWord edge undotted)
    rw [text, length]
    refine ⟨_, _, (first_notAhead_name hs (by rfl) words sub).seq
      ((first_qualifying hs.toList_ne_nil hs.isWord).option.seq
        (unqualified.seq (first_keep_word ht.toList_ne_nil ht.isWord edge))), ?_, rfl, ?_⟩
    · show position + s.toList.length + 1 + table.toList.length = _
      omega
    · simp [Assoc.get?]

include ha in
/-- An alias is taken behind AS. -/
theorem exists_first_tableAlias (edge : rest.head?.any isWord = false) :
    ∃ stop span, First tableAlias
        ⟨before, position, ' ' :: ("AS".toList ++ ' ' :: (aliasName.toList ++ rest))⟩ stop
        [(.aliasName, span)] ∧
      stop.position = position + (aliasName.toList.length + 4) ∧ stop.rest = rest ∧
      String.ofList span.chars = aliasName := by
  have words : AreWords reservedWords := by decide
  have sub : ∀ j ∈ reservedWords, j ∈ patternWords := fun j hj => List.mem_append_left _ hj
  have unblank : (aliasName.toList ++ rest).head?.any isBlank = false :=
    head?_isBlank_of_isWord ha.toList_ne_nil ha.isWord rest
  have keywordAs : First (σ := Part) (all [keyword "AS", someBlanks])
      ⟨some ' ', position + 1, "AS".toList ++ ' ' :: (aliasName.toList ++ rest)⟩ _ [] :=
    (first_keyword (w := "AS".toList) (by decide)).seq (first_someBlanks unblank)
  refine ⟨_, _, ((first_someBlanks (by rfl)).seq (keywordAs.option.seq
    ((first_notAhead_name ha edge words sub).seq
      (first_keep_word ha.toList_ne_nil ha.isWord edge)))).option, ?_, rfl, ?_⟩
  · show position + 1 + 2 + 1 + aliasName.toList.length = _
    omega
  · simp

omit hs ht ha in
/-- The parts that a table and its alias keep are read as a mention of the table. -/
theorem mention_of_parts {parts : Kept Part} {span : Span}
    (outer : (Assoc.get? .outer parts).map (fun s => String.ofList s.chars) = schema)
    (inner : Assoc.get? .inner parts = none)
    (named : (Assoc.get? .table parts).map (fun s => String.ofList s.chars) = some table)
    (aliased : String.ofList span.chars = aliasName) (start stop : Place) :
    mention ⟨start, stop, [(.aliasName, span)] ++ parts⟩ =
      .mentioned schema table (some aliasName) := by
  have other (slot : Part) (h : slot ≠ .aliasName) :
      Assoc.get? slot ([(.aliasName, span)] ++ parts) = Assoc.get? slot parts := by
    simp [Assoc.get?, Ne.symm h]
  have schema_eq : partText? ⟨start, stop, [(.aliasName, span)] ++ parts⟩ .outer = schema := by
    rw [partText?, Match.part?, other _ (by decide), Option.map_map]
    exact outer
  have table_eq : partText ⟨start, stop, [(.aliasName, span)] ++ parts⟩ .table = table := by
    rw [partText, Match.part, Match.part?, other _ (by decide)]
    cases found : Assoc.get? Part.table parts with
    | none => rw [found] at named; cases named
    | some s =>
      rw [found] at named
      exact Option.some.inj named
  have no_inner : partText? ⟨start, stop, [(.aliasName, span)] ++ parts⟩ .inner = none := by
    rw [partText?, Match.part?, other _ (by decide), inner]
    rfl
  have alias_eq : partText? ⟨start, stop, [(.aliasName, span)] ++ parts⟩ .aliasName =
      some aliasName := by
    rw [← aliased]
    rfl
  rw [mention, no_inner, schema_eq, table_eq, alias_eq]
  rfl

include hs ht ha in
/-- A table with its alias is taken as it is written. -/
theorem exists_first_table (edge : rest.head?.any isWord = false) :
    ∃ stop parts, First (seq tableName tableAlias)
        ⟨before, position, tableText schema table aliasName ++ rest⟩ stop parts ∧
      stop.position = position + (tableText schema table aliasName).length ∧ stop.rest = rest ∧
      ∀ start stop, mention ⟨start, stop, parts⟩ = .mentioned schema table (some aliasName) := by
  have text : tableText schema table aliasName ++ rest = (fullName schema table).toList ++
      ' ' :: ("AS".toList ++ ' ' :: (aliasName.toList ++ rest)) := by
    simp only [tableText, List.append_assoc, List.cons_append]
  have length : (tableText schema table aliasName).length =
      (fullName schema table).toList.length + (aliasName.toList.length + 4) := by
    simp only [tableText, List.length_append, List.length_cons]
    show _ + (2 + _ + 1) = _
    omega
  obtain ⟨⟨mid_before, _, _⟩, parts, named, rfl, rfl, inner, outer, named_table, -⟩ :=
    @exists_first_tableName schema table hs ht before position
      (' ' :: ("AS".toList ++ ' ' :: (aliasName.toList ++ rest))) (by rfl) (by simp)
  obtain ⟨stop, span, aliased, stop_position, stop_rest, chars⟩ :=
    @exists_first_tableAlias aliasName ha mid_before
      (position + (fullName schema table).toList.length) rest edge
  rw [text]
  refine ⟨stop, _, named.seq aliased, ?_, stop_rest, ?_⟩
  · rw [stop_position, length, Nat.add_assoc]
  · exact mention_of_parts outer inner named_table chars

/-! ## After FROM and JOIN -/

include hs ht in
/-- A table starts with a word. -/
theorem head?_tableText (rest : List Char) :
    (tableText schema table aliasName ++ rest).head?.any isBlank = false := by
  cases schema with
  | none =>
    rw [tableText, fullName, List.append_assoc]
    exact head?_isBlank_of_isWord ht.toList_ne_nil ht.isWord _
  | some s =>
    have hs : IsName s := hs s rfl
    rw [tableText, fullName, String.toList_append, String.toList_append, List.append_assoc,
      List.append_assoc, List.append_assoc]
    exact head?_isBlank_of_isWord hs.toList_ne_nil hs.isWord _

theorem atWordEdge_of_head {c : Char} {s : List Char} (outside : before.any Text.isWord = false)
    (inside : Text.isWord c = true) : (⟨before, position, c :: s⟩ : Place).atWordEdge = true := by
  simp [Place.atWordEdge, outside, inside]

include hs ht ha in
theorem exists_first_fromTable (outside : before.any Text.isWord = false)
    (edge : rest.head?.any Text.isWord = false) :
    ∃ stop parts, First fromTable
        ⟨before, position, "FROM".toList ++ ' ' :: tableText schema table aliasName ++ rest⟩ stop
        parts ∧
      stop.position = position + ("FROM".toList ++ ' ' :: tableText schema table aliasName).length ∧
      stop.rest = rest ∧
      ∀ start stop, mention ⟨start, stop, parts⟩ = .mentioned schema table (some aliasName) := by
  obtain ⟨stop, parts, first, stop_position, stop_rest, reads⟩ :=
    @exists_first_table schema table aliasName hs ht ha (some ' ') (position + 4 + 1) rest edge
  have start : First (wordEdge (σ := Part)) ⟨before, position, "FROM".toList ++
      ' ' :: (tableText schema table aliasName ++ rest)⟩ ⟨before, position, "FROM".toList ++
      ' ' :: (tableText schema table aliasName ++ rest)⟩ [] :=
    first_wordEdge (atWordEdge_of_head outside (by rfl))
  have from_ : Spells "FROM" "FROM".toList := by decide
  refine ⟨stop, parts, ?_, ?_, stop_rest, reads⟩
  · rw [List.append_assoc, List.cons_append]
    exact start.andThen ((first_keyword from_).andThen
      ((first_someBlanks (head?_tableText hs ht rest)).andThen first))
  · rw [stop_position, List.length_append, List.length_cons]
    show _ = position + (4 + _)
    omega

omit hs ht ha in
theorem first_joinSide (kind : JoinKind) :
    First joinSide ⟨before, position, kind.name.toList ++ ' ' :: ("JOIN".toList ++ ' ' :: rest)⟩
      ⟨some ' ', position + kind.name.toList.length + 1, "JOIN".toList ++ ' ' :: rest⟩ [] := by
  cases kind <;> rfl

include hs ht ha in
theorem exists_first_joinTable (kind : JoinKind) (outside : before.any Text.isWord = false)
    (edge : rest.head?.any Text.isWord = false) :
    ∃ stop parts, First joinTable
        ⟨before, position, kind.name.toList ++ ' ' :: ("JOIN".toList ++
          ' ' :: tableText schema table aliasName) ++ rest⟩ stop parts ∧
      stop.position = position + (kind.name.toList ++ ' ' :: ("JOIN".toList ++
          ' ' :: tableText schema table aliasName)).length ∧
      stop.rest = rest ∧
      ∀ start stop, mention ⟨start, stop, parts⟩ = .mentioned schema table (some aliasName) := by
  obtain ⟨stop, parts, first, stop_position, stop_rest, reads⟩ :=
    @exists_first_table schema table aliasName hs ht ha (some ' ')
      (position + kind.name.toList.length + 1 + 4 + 1) rest edge
  have start : First (wordEdge (σ := Part)) ⟨before, position, kind.name.toList ++
      ' ' :: ("JOIN".toList ++ ' ' :: (tableText schema table aliasName ++ rest))⟩
      ⟨before, position, kind.name.toList ++
      ' ' :: ("JOIN".toList ++ ' ' :: (tableText schema table aliasName ++ rest))⟩ [] := by
    refine first_wordEdge ?_
    cases kind <;> exact atWordEdge_of_head outside (by rfl)
  have join_ : Spells "JOIN" "JOIN".toList := by decide
  refine ⟨stop, parts, ?_, ?_, stop_rest, reads⟩
  · rw [List.append_assoc, List.cons_append, List.append_assoc, List.cons_append]
    exact start.andThen ((first_joinSide kind).andThen ((first_keyword join_).andThen
      ((first_someBlanks (head?_tableText hs ht rest)).andThen first)))
  · rw [stop_position, List.length_append, List.length_cons, List.length_append, List.length_cons]
    show _ = position + (_ + (4 + _ + 1))
    omega

end

end QueryWorkbench.Analysis
