/-
QueryWorkbench.Proofs.Sql.NeutralPhrases — phrases that are laid out as they are.

Between the quotes and dots of a column or a table no character is a blank or a comma, so these are
neutral as soon as none of their names is a word of the clause patterns. So are operators, numbers,
and the literals of values that hold no text (`neutral_literal`); the literal of a text may be
anything.
-/
import QueryWorkbench.Proofs.Sql.Lines
import QueryWorkbench.Proofs.Sql.SelectShape

namespace QueryWorkbench.Sql

open Analysis Text

/-! ## Identifiers -/

/-- The words of the clause patterns and of the connectives. -/
def formatWords : List String := Clause.words ++ ["AND", "OR"]

/-- A name in ASCII that formatting takes for no word of a pattern. -/
structure IsIdentifier (s : String) : Prop where
  ne_empty : s ≠ ""
  ascii : ∀ c ∈ s.toList, c.toNat < 128
  isWord : ∀ c ∈ s.toList, Text.isWord c = true
  free : ∀ k ∈ formatWords, lower s ≠ lower k

instance (s : String) : Decidable (IsIdentifier s) :=
  decidable_of_iff (s ≠ "" ∧ (∀ c ∈ s.toList, c.toNat < 128) ∧
      (∀ c ∈ s.toList, Text.isWord c = true) ∧ ∀ k ∈ formatWords, lower s ≠ lower k)
    ⟨fun ⟨a, b, c, d⟩ => ⟨a, b, c, d⟩, fun ⟨a, b, c, d⟩ => ⟨a, b, c, d⟩⟩

/-- A table: an identifier, or two identifiers with a dot between them. -/
def IsTableRef (t : String) : Prop :=
  IsIdentifier t ∨ ∃ schema name, IsIdentifier schema ∧ IsIdentifier name ∧ t = schema ++ "." ++ name

/-- A column: an identifier, or the star that stands for all columns. -/
def IsColumnRef (c : String) : Prop := c = "*" ∨ IsIdentifier c

/-! ## Solid texts -/

theorem isSolid_of_isWord {c : Char} (h : isWord c = true) : isSolid c = true := by
  have blank : isBlank c = false := by
    refine Bool.eq_false_iff.mpr fun blank => ?_
    rw [isWord_of_isBlank blank] at h
    cases h
  have comma : c ≠ ',' := by
    rintro rfl
    cases h
  simp [isSolid, blank, comma]

/-- A text of solid characters without any word of the patterns. -/
structure Atom (s : List Char) : Prop where
  nonempty : s ≠ []
  solid : ∀ c ∈ s, isSolid c = true
  lacks : Lacks formatWords s

instance (s : List Char) : Decidable (Atom s) :=
  decidable_of_iff (s ≠ [] ∧ (∀ c ∈ s, isSolid c = true) ∧ Lacks formatWords s)
    ⟨fun ⟨a, b, c⟩ => ⟨a, b, c⟩, fun ⟨a, b, c⟩ => ⟨a, b, c⟩⟩

namespace Atom

variable {s t : List Char} {c : Char}

theorem neutral (h : Atom s) : Neutral s := (normalised_of_solid h.nonempty h.solid).neutral h.lacks

/-- Two atoms with a sign between them. -/
theorem append (solid : isSolid c = true) (edge : isWord c = false) (hs : Atom s) (ht : Atom t) :
    Atom (s ++ c :: t) := by
  refine ⟨by simp, fun d hd => ?_, (lacks_append_cons edge).mpr ⟨hs.lacks, ht.lacks⟩⟩
  rcases List.mem_append.mp hd with hd | hd
  · exact hs.solid d hd
  · rcases List.mem_cons.mp hd with rfl | hd
    · exact solid
    · exact ht.solid d hd

/-- An atom with a sign behind it. -/
theorem concat (solid : isSolid c = true) (edge : isWord c = false) (hs : Atom s) :
    Atom (s ++ [c]) := by
  refine ⟨by simp, fun d hd => ?_, (lacks_append_cons edge).mpr ⟨hs.lacks, lacks_nil⟩⟩
  rcases List.mem_append.mp hd with hd | hd
  · exact hs.solid d hd
  · exact List.mem_singleton.mp hd ▸ solid

/-- An atom with a sign in front of it. -/
theorem cons (solid : isSolid c = true) (edge : isWord c = false) (hs : Atom s) : Atom (c :: s) :=
  ⟨List.cons_ne_nil _ _, List.forall_mem_cons.mpr ⟨solid, hs.solid⟩, (lacks_cons edge).mpr hs.lacks⟩

end Atom

theorem atom_of_isIdentifier {s : String} (h : IsIdentifier s) : Atom s.toList := by
  have words : ∀ k ∈ formatWords, ∀ c ∈ k.toList, c.toNat < 128 := by decide
  exact ⟨fun none => h.ne_empty (String.toList_eq_nil_iff.mp none),
    fun c hc => isSolid_of_isWord (h.isWord c hc),
    lacks_of_all h.isWord fun k hk => not_spells_of_lower_ne (words k hk) h.ascii (h.free k hk)⟩

theorem atom_of_isTableRef {t : String} (h : IsTableRef t) : Atom t.toList := by
  rcases h with name | ⟨schema, name, hs, hn, rfl⟩
  · exact atom_of_isIdentifier name
  · rw [String.toList_append, String.toList_append, List.append_assoc]
    exact (atom_of_isIdentifier hs).append (by decide) (by decide) (atom_of_isIdentifier hn)

variable {d : Dialect}

/-- An identifier between quotes. -/
theorem atom_quote {s : String} (h : IsIdentifier s) : Atom (d.quote s).toList := by
  rw [Dialect.quote, String.toList_ofList, Dialect.quoteChars, doubled_closing h.isWord]
  have signs : ∀ c ∈ [d.opening, d.closing], isSolid c = true ∧ isWord c = false := by
    cases d <;> decide
  have opening := signs d.opening (List.mem_cons_self ..)
  have closing := signs d.closing (List.mem_cons_of_mem _ (List.mem_singleton.mpr rfl))
  exact ((atom_of_isIdentifier h).concat closing.1 closing.2).cons opening.1 opening.2

/-! ## Phrases -/

/-- A phrase whose text is an atom. -/
abbrev AtomPhrase (d : Dialect) (p : Phrase) : Prop := Atom (p.chars d)

/-- A phrase whose text is neutral. -/
abbrev NeutralPhrase (d : Dialect) (p : Phrase) : Prop := Neutral (p.chars d)

theorem neutral_word {s : String} (h : Neutral s.toList) : NeutralPhrase d [.word s] := by
  rw [NeutralPhrase, Phrase.chars, Phrase.toList_text_singleton]
  exact h

theorem atom_columnRef {aliases : List (String × String)} {table column : String}
    (owner : Atom (aliasOr aliases table).toList) (hc : IsColumnRef column) :
    AtomPhrase d (columnRef aliases table column) := by
  have given : aliasOr aliases table ≠ "" := by
    intro empty
    rw [empty] at owner
    exact owner.nonempty rfl
  have shown : Atom (Token.text d (if column = "*" then .word "*" else .name column)).toList := by
    rcases hc with rfl | identifier
    · rw [if_pos rfl]
      exact (by decide : Atom "*".toList)
    · split
      · exact (by decide : Atom "*".toList)
      · exact atom_quote identifier
  rw [columnRef, if_neg given, AtomPhrase, Phrase.chars, Phrase.toList_text_cons,
    Phrase.toList_text_singleton]
  show Atom ((aliasOr aliases table ++ ".").toList ++ _)
  rw [String.toList_append, List.append_assoc]
  exact owner.append (by decide) (by decide) shown

theorem atom_tablePhrase {t : String} (h : IsTableRef t) {schema : Option String}
    (none : given schema = none) : AtomPhrase d (tablePhrase t schema) := by
  rcases h with name | ⟨own, name, hs, hn, rfl⟩
  · rw [tablePhrase, Dialect.nameParts_dotless none (not_mem_dot_of_isWord name.isWord),
      List.map_cons, List.map_nil, List.intercalate_singleton, AtomPhrase, Phrase.chars, Phrase.toList_text_singleton]
    exact atom_quote name
  · rw [tablePhrase, Dialect.nameParts_dotted none (not_mem_dot_of_isWord hs.isWord) name,
      List.map_cons, List.map_cons, List.map_nil, List.intercalate_cons_cons,
      List.intercalate_singleton, AtomPhrase, Phrase.chars]
    show Atom (Phrase.text d [.name own, .word ".", .name name]).toList
    rw [Phrase.toList_text_cons, Phrase.toList_text_cons, Phrase.toList_text_singleton]
    show Atom ((d.quote own).toList ++ (".".toList ++ (d.quote name).toList))
    exact (atom_quote hs).append (c := '.') (by decide) (by decide) (atom_quote hn)

/-! ## Values -/

mutual

/-- A value that holds no text and no object. -/
def textless : Json → Bool
  | .str _ => false
  | .obj _ => false
  | .arr items => textlessItems items
  | _ => true

/-- The items of a list hold no text and no object. -/
def textlessItems : List Json → Bool
  | [] => true
  | v :: rest => textless v && textlessItems rest

end

theorem atom_numeral {s : List Char} (h : Numeral s) : Atom s := by
  have solid : ∀ c ∈ '-' :: figures, isSolid c = true := by decide
  have letters : ∀ c ∈ '-' :: figures, keywordLetter c ∉ "lorwtbdg".toList := by decide
  have hit : ∀ k ∈ formatWords, ∃ c ∈ "lorwtbdg".toList, c ∈ k.toList.map Char.toLower := by decide
  exact ⟨h.nonempty, fun c hc => solid c (h.chars c hc),
    lacks_of_absent hit fun c hc => letters c (h.chars c hc)⟩

/-- A text in parentheses. -/
theorem Neutral.parens {s : List Char} (h : Neutral s) : Neutral ('(' :: (s ++ [')'])) := by
  have words : wordsOf ('(' :: (s ++ [')'])) = wordsOf s := by
    rw [wordsOf_cons (by decide), wordsOf_append_cons (by decide)]
    exact List.append_nil _
  have kept : normal ('(' :: (s ++ [')'])) = '(' :: (s ++ [')']) := by
    rw [normal_cons (by decide), normal_append_cons (by decide), h.kept]
    rfl
  refine ⟨⟨.of_ends (by decide) (by decide), kept⟩, ?_, ?_⟩
  · rw [Lacks, words]
    exact h.lacks
  · rw [words]
    exact h.capitals

mutual

/-- The literal of a value without texts is neutral. -/
theorem neutral_literal : ∀ v : Json, textless v = true → Neutral (literal v).toList
  | .null, _ => by
    have word : Neutral "NULL".toList := by decide
    rwa [literal]
  | .bool b, _ => by
    have digits : Neutral "1".toList ∧ Neutral "0".toList := by decide
    rw [literal]
    cases b with
    | true => exact digits.1
    | false => exact digits.2
  | .int n, _ => by
    rw [literal]
    exact (atom_numeral (numeral_integer n)).neutral
  | .num x, _ => by
    rw [literal]
    exact (atom_numeral (numeral_float x)).neutral
  | .str s, h => by
    rw [textless] at h
    cases h
  | .arr items, h => by
    rw [textless] at h
    rw [literal, String.toList_append, String.toList_append, List.append_assoc]
    rcases neutral_literals items h with rfl | neutral
    · rw [literals, String.intercalate_nil]
      exact (by decide : Neutral "()".toList)
    · exact neutral.parens
  | .obj members, h => by
    rw [textless] at h
    cases h

/-- So is that of all items of a list, with commas between them. -/
theorem neutral_literals : ∀ items : List Json, textlessItems items = true →
    items = [] ∨ Neutral (", ".intercalate (literals items)).toList
  | [], _ => Or.inl rfl
  | [v], h => by
    rw [textlessItems, Bool.and_eq_true] at h
    rw [literals, literals, String.intercalate_singleton]
    exact Or.inr (neutral_literal v h.1)
  | v :: w :: rest, h => by
    rw [textlessItems, Bool.and_eq_true] at h
    have more := (neutral_literals (w :: rest) h.2).resolve_left (List.cons_ne_nil _ _)
    rw [literals] at more ⊢
    rw [literals, String.intercalate_cons_cons, String.toList_append, String.toList_append,
      List.append_assoc]
    exact Or.inr ((neutral_literal v h.1).comma more)

end

/-! ## Levels -/

/-- A level whose tables, columns and aliases are identifiers, and whose first table has no schema
of its own. -/
structure Identified {Q : Type} (c : Clauses Q) : Prop where
  source : IsTableRef c.source.table ∧ IsIdentifier c.source.aliasName
  schema : given c.source.schema = none
  fields : ∀ x ∈ c.fields,
    IsTableRef x.table ∧ IsColumnRef x.column ∧ ∀ a, given x.aliasName = some a → IsIdentifier a
  joins : ∀ j ∈ c.joins, IsIdentifier j.sourceAlias ∧ IsIdentifier j.sourceColumn ∧
    IsTableRef j.targetTable ∧ IsIdentifier j.targetAlias ∧ IsIdentifier j.targetColumn
  conditions : ∀ x ∈ c.conditions.getD [], IsTableRef x.table ∧ IsColumnRef x.column
  groupings : ∀ g ∈ c.groupings.getD [], IsTableRef g.table ∧ IsColumnRef g.column
  sortings : ∀ s ∈ c.sortings.getD [], IsTableRef s.table ∧ IsColumnRef s.column

theorem Identified.map {P Q : Type} {c : Clauses P} (f : P → Q) (h : Identified c) :
    Identified (c.map f) := by
  refine ⟨h.source, h.schema, List.forall_mem_map.mpr h.fields, List.forall_mem_map.mpr h.joins, ?_,
    h.groupings, h.sortings⟩
  rw [c.getD_conditions_map f]
  exact List.forall_mem_map.mpr h.conditions

section

variable {c : Clauses String}

theorem atom_aliasOr (h : Identified c) {table : String} (ht : IsTableRef table) :
    Atom (aliasOr c.tableAliases table).toList := by
  rcases c.aliasOr_tableAliases table with same | same | ⟨j, hj, same⟩ <;> rw [same]
  · exact atom_of_isTableRef ht
  · exact atom_of_isIdentifier h.source.2
  · exact atom_of_isIdentifier (h.joins j hj).2.2.2.1

theorem atom_column (h : Identified c) {table column : String} (ht : IsTableRef table)
    (hc : IsColumnRef column) : AtomPhrase d (columnRef c.tableAliases table column) :=
  atom_columnRef (atom_aliasOr h ht) hc

omit c in
theorem atom_word {s : String} (h : Atom s.toList) : AtomPhrase d [.word s] := by
  rw [AtomPhrase, Phrase.chars, Phrase.toList_text_singleton]
  exact h

omit c in
/-- A function called with an atom. -/
theorem atom_call (a : Aggregate) (p : Phrase) (h : AtomPhrase d p) :
    AtomPhrase d (.word a.name :: .word "(" :: p ++ [.word ")"]) := by
  have function : Atom a.name.toList := by cases a <;> decide
  rw [List.cons_append, List.cons_append, AtomPhrase, Phrase.chars, Phrase.toList_text_cons,
    Phrase.toList_text_cons, Phrase.toList_text_append, Phrase.toList_text_singleton]
  show Atom (a.name.toList ++ ("(".toList ++ (_ ++ ")".toList)))
  exact function.append (c := '(') (by decide) (by decide) (h.concat (c := ')') (by decide) (by decide))

omit c in
theorem atom_declared {a : String} (h : IsIdentifier a) : AtomPhrase d [.declared a] := by
  rw [AtomPhrase, Phrase.chars, Phrase.toList_text_singleton]
  exact atom_of_isIdentifier h

/-- What SELECT lists is made of atoms. -/
theorem atom_selectItems (flat : Flat c) (h : Identified c) :
    ∀ item ∈ selectItems c.tableAliases c.fields, item ≠ [] ∧ ∀ p ∈ item, AtomPhrase d p := by
  have star : AtomPhrase d [.word "*"] := atom_word (by decide)
  refine forall_selectItems star fun x hx => ?_
  obtain ⟨ht, hc, ha⟩ := h.fields x hx
  refine forall_fieldPhrases (flat.fields x hx) (atom_column h ht hc) star atom_call
    (atom_word (by decide)) fun a named => ?_
  rw [AtomPhrase, Phrase.chars, Phrase.toList_text_singleton]
  exact atom_quote (ha a named)

/-- FROM is made of atoms. -/
theorem atom_sourcePhrases (flat : Flat c) (h : Identified c) :
    ∃ more, sourcePhrases c.source = [.word "FROM"] :: more ∧ more ≠ [] ∧
      ∀ p ∈ more, AtomPhrase d p := by
  have clause := rel_sourcePhrases (R := fun p _ => AtomPhrase d p) c.source
    (relNested_of_none flat.source) (atom_tablePhrase h.source.1 h.schema) (atom_word (by decide))
    (atom_declared h.source.2)
  rcases clause.phrases with none | found
  · cases none
  · rwa [map_phrase_row] at found

section

variable (flat : Flat c) (h : Identified c) {j : Join String} (hj : j ∈ c.joins)
include flat h hj

/-- The target of a join is made of atoms. -/
theorem atom_joinTarget : ∀ p ∈ joinTarget j, AtomPhrase d p := by
  obtain ⟨-, -, table, aliasName, -⟩ := h.joins j hj
  have plain := (flat.joins j hj).1
  exact forall₂_diagonal.mp (rel_joinTarget (R := fun p _ => AtomPhrase d p) j
    (relNested_of_none plain) (atom_tablePhrase table rfl) (atom_word (by decide))
    (atom_declared aliasName) fun nested => absurd plain nested)

/-- The equality of a join is made of atoms. -/
theorem atom_joinCondition : joinCondition j ≠ [] ∧ ∀ p ∈ joinCondition j, AtomPhrase d p := by
  obtain ⟨sourceAlias, sourceColumn, -, targetAlias, targetColumn⟩ := h.joins j hj
  have side {a col : String} (ha : IsIdentifier a) (hc : IsIdentifier col) :
      AtomPhrase d [.owner a, .name col] := by
    have dotted : Atom (a.toList ++ '.' :: (d.quote col).toList) :=
      (atom_of_isIdentifier ha).append (by decide) (by decide) (atom_quote hc)
    rw [AtomPhrase, Phrase.chars, Phrase.toList_text_cons, Phrase.toList_text_singleton]
    show Atom ((a ++ ".").toList ++ _)
    rw [String.toList_append, List.append_assoc]
    exact dotted
  exact forall_joinCondition
    (fun s written => by rw [(flat.joins j hj).2] at written; cases written)
    (atom_word (by decide)) (side sourceAlias sourceColumn) (side targetAlias targetColumn)

end

/-! ### Conditions -/

omit c in
theorem neutral_operator (o : Operator) : NeutralPhrase d [.word o.name] := by
  refine neutral_word ?_
  cases o <;> decide

omit c in
theorem neutral_connective (w : Connective) : NeutralPhrase d [.word w.name] := by
  refine neutral_word ?_
  cases w <;> decide

omit c in
theorem textless_of_mem {items : List Json} (h : textlessItems items = true) :
    ∀ v ∈ items, textless v = true := by
  induction items with
  | nil => exact fun v hv => absurd hv List.not_mem_nil
  | cons w items ih =>
    rw [textlessItems, Bool.and_eq_true] at h
    exact List.forall_mem_cons.mpr ⟨h.1, ih h.2⟩

/-- Conditions without texts in their values are made of neutral phrases. -/
theorem neutral_conditionPhrases (flat : Flat c) (h : Identified c) {x : Condition String}
    (hx : x ∈ c.conditions.getD []) (value : textless x.value = true) :
    ∀ p ∈ conditionPhrases c.tableAliases x, NeutralPhrase d p := by
  have items : ∀ {vs}, textless (.arr vs) = true → ∀ v ∈ vs, textless v = true := fun h =>
    textless_of_mem (by rwa [textless] at h)
  have single : ∀ {v}, textless v = true → textless (.arr [v]) = true := fun h => by
    rw [textless, textlessItems, textlessItems, h]
    rfl
  refine forall_conditionPhrases (flat.conditions x hx)
    (atom_column h (h.conditions x hx).1 (h.conditions x hx).2).neutral (neutral_operator _)
    (forall_operandPhrases (V := fun v => textless v = true) items single (fun {v} h => ?_)
      (neutral_word (by decide)) _ value)
  rw [NeutralPhrase, Phrase.chars, Phrase.toList_text_singleton]
  exact neutral_literal v h

/-! ### Any values -/

/-- A phrase whose text has solid ends. -/
abbrev FirmPhrase (d : Dialect) (p : Phrase) : Prop := Firm (p.chars d)

omit c in
theorem firm_textLiteral (s : String) : Firm (textLiteral s).toList := by
  rw [textLiteral, String.toList_ofList]
  exact .of_ends (by decide) (by decide)

omit c in
/-- Every literal has solid ends. -/
theorem firm_literal (v : Json) : Firm (literal v).toList := by
  cases v with
  | null => exact (neutral_literal .null rfl).firm
  | bool b => exact (neutral_literal (.bool b) rfl).firm
  | int n => exact (neutral_literal (.int n) rfl).firm
  | num x => exact (neutral_literal (.num x) rfl).firm
  | str s =>
    rw [literal]
    exact firm_textLiteral s
  | arr items =>
    rw [literal, String.toList_append, String.toList_append, List.append_assoc]
    exact .of_ends (by decide) (by decide)
  | obj members =>
    rw [literal]
    exact firm_textLiteral _

omit c in
theorem firm_value (v : Json) : FirmPhrase d [.value v] := by
  rw [FirmPhrase, Phrase.chars, Phrase.toList_text_singleton]
  exact firm_literal v

/-- Conditions are made of phrases with solid ends. -/
theorem firm_conditionPhrases (flat : Flat c) (h : Identified c) {x : Condition String}
    (hx : x ∈ c.conditions.getD []) : ∀ p ∈ conditionPhrases c.tableAliases x, FirmPhrase d p :=
  forall_conditionPhrases (flat.conditions x hx)
    (atom_column h (h.conditions x hx).1 (h.conditions x hx).2).neutral.firm (neutral_operator _).firm
    (forall_operandPhrases (V := fun _ => True) (fun _ _ _ => trivial) (fun _ => trivial)
      (fun _ => firm_value _) (neutral_word (by decide)).firm _ trivial)

end

end QueryWorkbench.Sql
