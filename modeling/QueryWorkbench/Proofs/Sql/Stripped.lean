/-
QueryWorkbench.Proofs.Sql.Stripped — what stripping leaves of the parts of generated text.

`Strips s m` says that stripping leaves `m` of a text `s` wherever it stands in code. Text without
quotes, dashes and slashes stays as it is (`Unmarked.strips`), and of the literal of a value its
emptied literal is left, whatever texts the value is made of (`strips_literal`). Phrases and
fragments are related one by one, which `strips_render` carries over to the text in either layout.
-/
import QueryWorkbench.Proofs.Sql.Literal
import QueryWorkbench.Proofs.Sql.Phrases

namespace QueryWorkbench.Sql

open Analysis Text

/-! ## Unmarked text -/

/-- A text without the characters that start literals and comments. -/
def Unmarked (s : String) : Prop := ∀ c ∈ s.toList, c ≠ '\x27' ∧ c ≠ '/' ∧ c ≠ '-'

instance (s : String) : Decidable (Unmarked s) :=
  inferInstanceAs (Decidable (∀ c ∈ s.toList, c ≠ '\x27' ∧ c ≠ '/' ∧ c ≠ '-'))

namespace Unmarked

variable {s t : String}

theorem append (h : Unmarked s) (k : Unmarked t) : Unmarked (s ++ t) := by
  intro c hc
  rw [String.toList_append] at hc
  exact (List.mem_append.mp hc).elim (h c) (k c)

theorem join {items : List String} (all : ∀ s ∈ items, Unmarked s) :
    Unmarked (String.join items) := by
  intro c hc
  rw [String.toList_join] at hc
  obtain ⟨s, hs, hc⟩ := List.mem_flatMap.mp hc
  exact all s hs c hc

theorem ofList {l : List Char} (all : ∀ c ∈ l, c ∈ s.toList) (h : Unmarked s) :
    Unmarked (String.ofList l) := by
  intro c hc
  rw [String.toList_ofList] at hc
  exact h c (all c hc)

end Unmarked

theorem mem_of_mem_doubled {quote c : Char} {s : List Char} (hc : c ∈ doubled quote s) :
    c ∈ s := by
  induction s with
  | nil => cases hc
  | cons d s ih =>
    rw [doubled] at hc
    split at hc
    · rename_i same
      rcases List.mem_cons.mp hc with rfl | hc
      · exact same ▸ List.mem_cons_self ..
      · rcases List.mem_cons.mp hc with rfl | hc
        · exact same ▸ List.mem_cons_self ..
        · exact List.mem_cons_of_mem _ (ih hc)
    · rcases List.mem_cons.mp hc with rfl | hc
      · exact List.mem_cons_self ..
      · exact List.mem_cons_of_mem _ (ih hc)

/-- The quotes of names start no literal. -/
theorem Unmarked.quote {s : String} (d : Dialect) (h : Unmarked s) : Unmarked (d.quote s) := by
  have quotes : ∀ c ∈ [d.opening, d.closing], c ≠ '\x27' ∧ c ≠ '/' ∧ c ≠ '-' := by
    cases d <;> decide
  intro c hc
  rw [Dialect.quote, String.toList_ofList, Dialect.quoteChars, List.mem_cons, List.mem_append,
    List.mem_singleton] at hc
  rcases hc with rfl | hc | rfl
  · exact quotes _ (List.mem_cons_self ..)
  · exact h c (mem_of_mem_doubled hc)
  · exact quotes _ (List.mem_cons_of_mem _ (List.mem_cons_self ..))

theorem unmarked_natural (n : Nat) : Unmarked (toString n) := by
  intro c hc
  have figure : c ∈ figures := by
    rw [Nat.toString_eq_repr, Nat.toList_repr] at hc
    exact mem_figures_of_mem_toDigits c hc
  have unmarked : ∀ c ∈ figures, c ≠ '\x27' ∧ c ≠ '/' ∧ c ≠ '-' := by decide
  exact unmarked c figure

/-! ## Stripping part by part -/

/-- Stripping leaves the second text of the first one, unless a dash or a quote comes next. -/
def Strips (s m : List Char) : Prop := ∀ done rest, rest.head? ≠ some '-' →
  rest.head? ≠ some '\x27' → strip .code done (s ++ rest) = strip .code (m.reverse ++ done) rest

theorem Unmarked.strips {s : String} (h : Unmarked s) : Strips s.toList s.toList :=
  fun _ _ _ _ => strip_plain h

namespace Strips

variable {s m t n : List Char}

theorem strip_eq (h : Strips s m) : strip .code [] s = m := by
  have whole := h [] [] (by simp) (by simp)
  simpa [strip] using whole

theorem append (h : Strips s m) (k : Strips t n) (dash : t.head? ≠ some '-')
    (quote : t.head? ≠ some '\x27') : Strips (s ++ t) (m ++ n) := by
  intro done rest dash' quote'
  have first : (t ++ rest).head? ≠ some '-' ∧ (t ++ rest).head? ≠ some '\x27' := by
    cases t with
    | nil => exact ⟨dash', quote'⟩
    | cons c t => exact ⟨dash, quote⟩
  rw [List.append_assoc, h _ _ first.1 first.2, k _ _ dash' quote', List.reverse_append,
    List.append_assoc]

/-- Behind unmarked text a part may start in any way. -/
theorem behind {w : String} (hw : Unmarked w) (h : Strips s m) :
    Strips (w.toList ++ s) (w.toList ++ m) := by
  intro done rest dash quote
  rw [List.append_assoc, strip_plain hw, h _ _ dash quote, List.reverse_append, List.append_assoc]

theorem before {w : String} (h : Strips s m) (hw : Unmarked w) :
    Strips (s ++ w.toList) (m ++ w.toList) := by
  refine h.append hw.strips (fun first => ?_) fun first => ?_
  · exact (hw _ (List.mem_of_head? first)).2.2 rfl
  · exact (hw _ (List.mem_of_head? first)).1 rfl

end Strips

/-! ## Literals -/

/-- Among the characters of numbers only single dashes are special, and these are left. -/
theorem strips_of_bares {s b : List Char} (bares : Bares s b) (chars : ∀ c ∈ s, c ∈ '-' :: figures) :
    Strips s s := by
  induction bares with
  | nil => exact fun _ _ _ _ => rfl
  | @plain c s b plain _ ih =>
    simp only [isPlain, Bool.and_eq_true, bne_iff_ne] at plain
    intro done rest dash quote
    rw [List.cons_append, strip_code_cons (by simp [plain]) (by simp [plain]) (by simp [plain]),
      ih (fun e he => chars e (List.mem_cons_of_mem _ he)) _ _ dash quote]
    simp
  | @dash s b alone _ ih =>
    intro done rest dash quote
    have single : (s ++ rest).head? ≠ some '-' := by
      cases s with
      | nil => exact dash
      | cons c s => exact alone
    rw [List.cons_append, strip_code_cons (by decide) (by decide) fun _ => single,
      ih (fun e he => chars e (List.mem_cons_of_mem _ he)) _ _ dash quote]
    simp
  | literal => exact absurd (chars '\x27' (by simp [textLiteralChars])) (by decide)
  | @name d w s b =>
    have opening : d.opening ∉ '-' :: figures := by cases d <;> decide
    exact absurd (chars d.opening (by simp [Dialect.quoteChars])) opening

theorem Numeral.strips {s : List Char} (h : Numeral s) : Strips s s := strips_of_bares h.bares h.chars

/-- A text literal is emptied. -/
theorem strips_textLiteral (x : List Char) : Strips (textLiteralChars x) (textLiteralChars []) := by
  intro done rest _ quote
  rw [textLiteralChars, List.cons_append, List.append_assoc, List.singleton_append, strip,
    strip_literal quote]
  rfl

mutual

/-- Of a literal, the literal of the emptied value is left. -/
theorem strips_literal : ∀ v : Json, Strips (literal v).toList (literal v.emptied).toList
  | .null => by
    have word : Unmarked "NULL" := by decide
    rw [Json.emptied, literal]
    exact word.strips
  | .bool b => by
    have digit : Unmarked (if b then "1" else "0") := by cases b <;> decide
    rw [Json.emptied, literal]
    exact digit.strips
  | .int n => by
    rw [Json.emptied, literal]
    exact (numeral_integer n).strips
  | .num x => by
    rw [Json.emptied, literal]
    exact (numeral_float x).strips
  | .str s => by
    rw [Json.emptied, literal, literal, textLiteral, textLiteral, String.toList_ofList,
      String.toList_ofList]
    exact strips_textLiteral s.toList
  | .arr items => by
    have opening : Unmarked "(" := by decide
    have closing : Unmarked ")" := by decide
    rw [Json.emptied, literal, literal, String.toList_append, String.toList_append,
      String.toList_append, String.toList_append]
    exact ((strips_literals items).behind opening).before closing
  | .obj members => by
    rw [Json.emptied, literal, literal, textLiteral, textLiteral, String.toList_ofList,
      String.toList_ofList]
    exact strips_textLiteral _

/-- So it is for all items of a list, with commas between them. -/
theorem strips_literals : ∀ items : List Json, Strips (", ".intercalate (literals items)).toList
    (", ".intercalate (literals (Json.emptiedItems items))).toList
  | [] => by
    have nothing : Unmarked "" := by decide
    rw [Json.emptiedItems, literals, String.intercalate_nil]
    exact nothing.strips
  | [v] => by
    rw [Json.emptiedItems, Json.emptiedItems, literals, literals, literals, literals,
      String.intercalate_singleton, String.intercalate_singleton]
    exact strips_literal v
  | v :: w :: rest => by
    have comma : Unmarked ", " := by decide
    have more := strips_literals (w :: rest)
    rw [Json.emptiedItems, literals, literals] at more ⊢
    rw [Json.emptiedItems, literals, literals, String.intercalate_cons_cons,
      String.intercalate_cons_cons, String.toList_append, String.toList_append,
      String.toList_append, String.toList_append, List.append_assoc, List.append_assoc]
    exact (strips_literal v).append (more.behind comma) (by simp) (by simp)

end

variable {d : Dialect}

/-! ## Phrases -/

/-- Stripping leaves the second phrase of the first one. -/
def StripsPhrase (d : Dialect) (p q : Phrase) : Prop := Strips (p.text d).toList (q.text d).toList

theorem strips_of_unmarked {p : Phrase} (all : ∀ t ∈ p, Unmarked (t.text d)) : StripsPhrase d p p := by
  refine (Unmarked.join fun s hs => ?_).strips
  obtain ⟨t, ht, rfl⟩ := List.mem_map.mp hs
  exact all t ht

theorem strips_raw {s m : String} (h : Strips s.toList m.toList) :
    StripsPhrase d [.raw s] [.raw m] := by
  rw [StripsPhrase, Phrase.toList_text_singleton, Phrase.toList_text_singleton]
  exact h

theorem strips_value (v : Json) : StripsPhrase d [.value v] [.value v.emptied] := by
  rw [StripsPhrase, Phrase.toList_text_singleton, Phrase.toList_text_singleton]
  exact strips_literal v

theorem StripsPhrase.before {p q : Phrase} (h : StripsPhrase d p q) {w : String} (hw : Unmarked w) :
    StripsPhrase d (p ++ [.word w]) (q ++ [.word w]) := by
  rw [StripsPhrase, Phrase.toList_text_append, Phrase.toList_text_append,
    Phrase.toList_text_singleton]
  exact Strips.before h hw

theorem StripsPhrase.behind {p q : Phrase} (h : StripsPhrase d p q) {w : String} (hw : Unmarked w) :
    StripsPhrase d (.word w :: p) (.word w :: q) := by
  rw [StripsPhrase, Phrase.toList_text_cons, Phrase.toList_text_cons]
  exact Strips.behind hw h

/-- A nested query in its parentheses. -/
theorem strips_nested {s m : String} (h : Strips s.toList m.toList) :
    StripsPhrase d (nested s) (nested m) :=
  ((strips_raw h).before (w := ")") (by decide)).behind (w := "(") (by decide)

theorem strips_word {w : String} (h : Unmarked w) : StripsPhrase d [.word w] [.word w] :=
  strips_of_unmarked (List.forall_mem_singleton.mpr h)

theorem strips_name {s : String} (h : Unmarked s) : StripsPhrase d [.name s] [.name s] :=
  strips_of_unmarked (List.forall_mem_singleton.mpr (h.quote d))

theorem strips_declared {a : String} (h : Unmarked a) : StripsPhrase d [.declared a] [.declared a] :=
  strips_of_unmarked (List.forall_mem_singleton.mpr h)

theorem strips_number (n : Nat) : StripsPhrase d [.word (toString n)] [.word (toString n)] :=
  strips_word (unmarked_natural n)

theorem strips_comma (p q : Phrase) (h : StripsPhrase d p q) :
    StripsPhrase d (p ++ [.word ","]) (q ++ [.word ","]) := h.before (by decide)

theorem strips_call (a : Aggregate) (p : Phrase) (h : StripsPhrase d p p) :
    StripsPhrase d (.word a.name :: .word "(" :: p ++ [.word ")"])
      (.word a.name :: .word "(" :: p ++ [.word ")"]) := by
  have function : Unmarked a.name := by cases a <;> decide
  exact ((h.before (w := ")") (by decide)).behind (w := "(") (by decide)).behind function

/-! ## Fragments -/

theorem strips_gapped (layout : Layout) {fs gs : List Fragment}
    (h : RelFragments (StripsPhrase d) fs gs) :
    Strips (gapped d layout fs) (gapped d layout gs) := by
  induction h with
  | nil => exact fun _ _ _ _ => rfl
  | @cons f g fs gs one more ih =>
    obtain ⟨same, phrase⟩ := one
    have blank : Unmarked (g.gap.text layout) := by cases layout <;> cases g.gap <;> decide
    rw [gapped, gapped, List.flatMap_cons, List.flatMap_cons, List.append_assoc, List.append_assoc,
      same]
    exact (Strips.append phrase ih (head?_gapped_ne layout fs (by decide))
      (head?_gapped_ne layout fs (by decide))).behind blank

/-- What is left of a text is the text of what is left. -/
theorem strips_render (layout : Layout) {fs gs : List Fragment}
    (h : RelFragments (StripsPhrase d) fs gs) :
    Strips (render d layout fs).toList (render d layout gs).toList := by
  cases h with
  | nil => exact fun _ _ _ _ => rfl
  | @cons f g fs gs one more =>
    rw [toList_render_cons, toList_render_cons]
    exact Strips.append one.2 (strips_gapped layout more) (head?_gapped_ne layout fs (by decide))
      (head?_gapped_ne layout fs (by decide))

/-! ## Names and columns -/

theorem unmarked_nameParts {table : String} {schema : Option String} (ht : Unmarked table)
    (hs : ∀ s ∈ schema, Unmarked s) : ∀ s ∈ Dialect.nameParts table schema, Unmarked s := by
  intro s h
  rw [Dialect.nameParts] at h
  split at h
  · rename_i named
    simp only [List.mem_cons, List.not_mem_nil, or_false] at h
    rcases h with rfl | rfl
    · exact hs _ (Option.eq_some_of_filter_eq_some named)
    · exact ht
  · split at h
    · rename_i before after parts
      rw [splitFirstDot?] at parts
      split at parts
      · cases parts
      · rename_i dot rest found
        obtain ⟨rfl, rfl⟩ := Prod.mk.inj (Option.some.inj parts)
        have behind : ∀ c ∈ rest, c ∈ table.toList := fun c hc =>
          (List.dropWhile_sublist _).subset (found ▸ List.mem_cons_of_mem _ hc)
        simp only [List.mem_cons, List.not_mem_nil, or_false] at h
        rcases h with rfl | rfl
        · exact ht.ofList fun c hc => (List.takeWhile_sublist _).subset hc
        · exact ht.ofList behind
    · obtain rfl := List.mem_singleton.mp h
      exact ht

theorem strips_tablePhrase {table : String} {schema : Option String} (ht : Unmarked table)
    (hs : ∀ s ∈ schema, Unmarked s) :
    StripsPhrase d (tablePhrase table schema) (tablePhrase table schema) :=
  strips_of_unmarked (forall_mem_tablePhrase (T := fun t => Unmarked (t.text d))
    (by decide : Unmarked ".") fun s h => (unmarked_nameParts ht hs s h).quote d)

theorem strips_columnRef {aliases : List (String × String)} {table column : String}
    (owner : Unmarked (aliasOr aliases table)) (hc : Unmarked column) :
    StripsPhrase d (columnRef aliases table column) (columnRef aliases table column) :=
  strips_of_unmarked (forall_mem_columnRef (T := fun t => Unmarked (t.text d))
    (fun _ => owner.append (by decide)) (by decide : Unmarked "*") (hc.quote d))

/-! ## Values -/

/-- An emptied value has the shape of the value. -/
theorem relValues_emptied : RelValues fun v w => w = v.emptied := by
  refine ⟨?_, ?_, ?_⟩
  · rintro vs w rfl
    rw [Json.emptied]
    refine ⟨_, rfl, ?_⟩
    induction vs with
    | nil => exact .nil
    | cons v vs ih =>
      rw [Json.emptiedItems]
      exact .cons rfl ih
  · intro v ws same
    obtain ⟨vs, rfl, -⟩ := Json.exists_of_emptied_eq_arr same.symm
    exact ⟨vs, rfl⟩
  · rintro v w rfl
    rw [Json.emptied, Json.emptiedItems, Json.emptiedItems]

/-- What a condition compares with is left emptied. -/
theorem strips_operandPhrases (kind : Operator) (v : Json) :
    List.Forall₂ (StripsPhrase d) (operandPhrases kind v) (operandPhrases kind v.emptied) :=
  rel_operandPhrases relValues_emptied (fun {v w} same => same ▸ strips_value v)
    (strips_word (by decide)) kind rfl

end QueryWorkbench.Sql
