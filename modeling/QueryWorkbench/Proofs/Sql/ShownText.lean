/-
QueryWorkbench.Proofs.Sql.ShownText — texts in conditions are laid out like conditions.

Formatting does not know about quotes. A text literal in WHERE is normalised with everything else,
and AND and OR inside it start new lines: it is shown in the lines of a condition of its own, and
kept as it is only if it is normalised and holds no connective between blanks
(`shown_infix_format`). `not_infix_format_songsTitled` is a text that is not kept.

## How the proof goes

The statement with this condition is a settled one with another body of WHERE (`filteredBy`,
`exists_filteredBy`), and its lines have those of the condition among them (`exists_clauseLines`). A
condition is cut into chunks at its connectives, each in a line of its own (`broken`). A literal
starts and ends with a quote, which is no part of a word, so that no connective reaches across its
ends, and the chunks of the literal are consecutive chunks of the condition (`infix_broken`); the
operator in front of it does not end in a connective (`not_connects_of_comparison`).

## The side conditions

* `Flat` and `Identified`, as for formatting without texts.
* No value in WHERE holds a word that ends the clause. Such a word ends the condition even inside a
  literal.
* The condition compares a column with one text, by one of the operators that have a value on their
  right (`comparisons`). What is shown of a list is not said.
-/
import QueryWorkbench.Proofs.Sql.Formatted

namespace QueryWorkbench.Sql

open Analysis Pattern Text

variable {d : Dialect}

/-! ## Lines of a condition -/

/-- Lines in the middle stand in the middle of the text. -/
theorem infix_intercalate {ls : List (List Char)} (some : ls ≠ []) (above below : List (List Char)) :
    ['\n'].intercalate ls <:+: ['\n'].intercalate (above ++ (ls ++ below)) := by
  obtain ⟨l, ls, rfl⟩ := List.exists_cons_of_ne_nil some
  rw [List.cons_append]
  cases above with
  | nil =>
    rw [List.nil_append, intercalate_cons, intercalate_cons, List.flatMap_append, ← List.append_assoc]
    exact (List.prefix_append _ _).isInfix
  | cons a above =>
    rw [List.cons_append, intercalate_cons, intercalate_cons, List.flatMap_append, List.flatMap_cons,
      List.flatMap_append]
    exact ⟨a ++ (above.flatMap (['\n'] ++ ·) ++ ['\n']), below.flatMap (['\n'] ++ ·), by simp⟩

/-- The lines of a condition are its head and its chunks. -/
theorem intercalate_conditionLines (head indent : List Char) {s : List Char} (h : Tidy s) :
    ['\n'].intercalate (conditionLines head s indent) = head ++ ' ' :: broken indent (chunks s) := by
  have laid := flatMap_conditionLines head indent h
  obtain ⟨l, ls, split⟩ : ∃ l ls, conditionLines head s indent = l :: ls := ⟨_, _, rfl⟩
  rw [split, List.flatMap_cons] at laid
  rw [split, intercalate_cons]
  exact (List.cons.inj laid).2

/-! ## Chunks of a text -/

section

variable {s : List Char} (h : Tidy s)
include h

/-- The first chunk starts like the text. -/
theorem head?_of_mem_head?_chunks : ∀ k ∈ (chunks s).head?, k.head? = s.head? := by
  have chunk := isChunk_of_mem_chunks h
  have text := intercalate_chunks s
  intro k hk
  obtain ⟨ks, split⟩ := List.head?_eq_some_iff.mp hk
  rw [split] at chunk text
  obtain ⟨c, k, rfl⟩ := List.exists_cons_of_ne_nil (chunk k (List.mem_cons_self ..)).nonempty
  rw [← text, intercalate_cons]
  rfl

/-- The last chunk ends like the text. -/
theorem getLast?_of_mem_getLast?_chunks : ∀ k ∈ (chunks s).getLast?, k.getLast? = s.getLast? := by
  have chunk := isChunk_of_mem_chunks h
  have text := intercalate_chunks s
  intro k hk
  obtain ⟨ks, split⟩ := List.getLast?_eq_some_iff.mp hk
  rw [split] at chunk text
  have nonempty := (chunk k (by simp)).nonempty
  have last := List.getLast?_eq_some_getLast nonempty
  cases ks with
  | nil => rw [← text, List.nil_append, List.intercalate_singleton]
  | cons l ks =>
    have apart := joined_append (List.cons_ne_nil l ks) (List.cons_ne_nil k [])
    rw [joined_cons k, spaced_nil, List.append_nil] at apart
    rw [← text]
    show _ = (joined _).getLast?
    rw [apart, List.getLast?_append, List.getLast?_cons, last]
    rfl

end

/-- A connective starts and ends with letters. -/
theorem connects_ends {k : List Char} (connects : Connects k) :
    k.head?.any isWord = true ∧ k.getLast?.any isWord = true := by
  obtain ⟨nonempty, word⟩ := connects.isWord
  rw [List.head?_eq_some_head nonempty, List.getLast?_eq_some_getLast nonempty]
  exact ⟨word _ (List.head_mem nonempty), word _ (List.getLast_mem nonempty)⟩

/-- A text that no letter starts or ends is shown in the same lines within a condition as alone. -/
theorem infix_broken {indent t : List Char} {front behind : List (List Char)} (tidy : Tidy t)
    (first : t.head?.any isWord = false) (last : t.getLast?.any isWord = false) (some : front ≠ [])
    (edge : ∀ k ∈ (chunks (joined front)).getLast?, ¬ Connects k) :
    ' ' :: broken indent (chunks t) <:+: broken indent (chunks (joined (front ++ t :: behind))) := by
  have start : ∀ k ∈ (chunks t).head?, ¬ Connects k := fun k hk connects => by
    rw [← head?_of_mem_head?_chunks tidy k hk, (connects_ends connects).1] at first
    cases first
  have stop : ∀ k ∈ (chunks t).getLast?, ¬ Connects k := fun k hk connects => by
    rw [← getLast?_of_mem_getLast?_chunks tidy k hk, (connects_ends connects).2] at last
    cases last
  obtain ⟨rest, split⟩ : ∃ rest, chunks (joined (front ++ t :: behind)) =
      chunks (joined front) ++ (chunks t ++ rest) := by
    rw [joined_append some (List.cons_ne_nil _ _), chunks_space]
    cases behind with
    | nil => exact ⟨[], by rw [joined_cons, spaced_nil, List.append_nil, List.append_nil]⟩
    | cons b behind => exact ⟨_, by rw [joined_cons_cons, chunks_space]⟩
  have start_all : ∀ k ∈ (chunks t ++ rest).head?, ¬ Connects k := by
    rwa [List.head?_append_of_ne_nil _ (chunks_ne_nil t)]
  obtain ⟨more, shown⟩ : ∃ more, broken indent (chunks t ++ rest) = broken indent (chunks t) ++ more :=
    exists_broken_append (chunks_ne_nil t) stop rest
  rw [split, broken_append (chunks_ne_nil _) (List.append_ne_nil_of_left_ne_nil (chunks_ne_nil t) _) edge
    start_all, shown]
  exact ⟨broken indent (chunks (joined front)), more, by simp⟩

/-! ## Statements with any condition -/

namespace Statement

/-- A statement with another condition. -/
def filteredBy (s : Statement) (body : List Char) : Statement := { s with condition := body }

section

variable {s : Statement} (h : s.Settled) {body : List Char}
include h

omit h in
theorem chars_filteredBy (some : body ≠ []) : (s.filteredBy body).chars = s.selection ++
    spaced (s.toJoins ++ (Clause.filterClause.text body :: s.grouping)) := by
  have clause : part Clause.filterClause body = [Clause.filterClause.text body] := if_neg some
  rw [chars_eq_filter]
  show s.selection ++ spaced (s.toJoins ++ (part Clause.filterClause body ++ s.grouping)) = _
  rw [clause, List.singleton_append]

/-- Only the condition is changed when a statement is normalised. -/
theorem normal_filteredBy (firm : Firm body) : Firm (s.filteredBy body).chars ∧
    normal (s.filteredBy body).chars = (s.filteredBy (normal body)).chars := by
  have head : Normalised "WHERE".toList := by decide
  have clause : normal (Clause.filterClause.text body) = Clause.filterClause.text (normal body) := by
    show normal ("WHERE".toList ++ ' ' :: body) = _
    rw [normal_space head.firm firm, head.kept]
    rfl
  have others : ∀ t ∈ s.toJoins ++ s.grouping, Normalised t := fun t ht => h.normalised_sourcing t (by
    rw [sourcing, filtering, ← List.append_assoc]
    exact (List.mem_append.mp ht).elim (List.mem_append_left _)
      fun ht => List.mem_append_right _ (List.mem_append_right _ ht))
  have before : s.toJoins.map normal = s.toJoins := (List.map_congr_left fun t ht =>
    (others t (List.mem_append_left _ ht)).kept).trans (List.map_id _)
  have behind : s.grouping.map normal = s.grouping := (List.map_congr_left fun t ht =>
    (others t (List.mem_append_right _ ht)).kept).trans (List.map_id _)
  have firm_all : ∀ t ∈ s.toJoins ++ (Clause.filterClause.text body :: s.grouping), Firm t := by
    refine List.forall_mem_append.mpr ⟨fun t ht => (others t (List.mem_append_left _ ht)).firm,
      List.forall_mem_cons.mpr ⟨head.firm.space firm, fun t ht =>
        (others t (List.mem_append_right _ ht)).firm⟩⟩
  rw [chars_filteredBy firm.ne_nil, chars_filteredBy firm.normal.ne_nil]
  refine ⟨h.normalised_selection.firm.spaced firm_all, ?_⟩
  rw [normal_spaced h.normalised_selection.firm firm_all, h.normalised_selection.kept, List.map_append,
    List.map_cons, before, clause, behind]

/-- WHERE is shown in the lines of its condition. -/
theorem exists_clauseLines (tidy : Tidy body) (lacks : Lacks Clause.filterClause.enders body) :
    ∃ above below, clauseLines (s.filteredBy body).chars =
      above ++ (conditionLines "WHERE".toList body "  ".toList ++ below) := by
  have front : Lacks [Clause.filterClause.opening] (s.selection ++ spaced s.toJoins) :=
    (lacks_append (head?_spaced _)).mpr ⟨h.lacks_selection (by decide) (by decide),
      lacks_spaced.mpr (h.lacks_toJoins (by decide) (by decide))⟩
  obtain ⟨m, found, kept⟩ :=
    Clause.sound_filter.exists_search? front lacks tidy h.followed_grouping
  have text : (s.filteredBy body).chars = s.selection ++ spaced s.toJoins ++
      ' ' :: (Clause.filterClause.text body ++ spaced s.grouping) := by
    rw [chars_filteredBy tidy.nonempty, spaced_append, spaced_cons, List.append_assoc]
  rw [← text] at found
  have lines : conditionLines "WHERE".toList (trim (m.part .condition)) "  ".toList =
      conditionLines "WHERE".toList body "  ".toList :=
    congrArg (conditionLines _ · _) ((congrArg trim kept).trans (trim_eq tidy.first tidy.last))
  have shown : ((Clause.filter.search? (s.filteredBy body).chars).map fun m =>
      conditionLines "WHERE".toList (trim (m.part .condition)) "  ".toList).getD [] =
        conditionLines "WHERE".toList body "  ".toList :=
    (congrArg (fun o => (Option.map _ o).getD []) found).trans lines
  have middle (a b c x e f g : List (List Char)) :
      a ++ b ++ c ++ x ++ e ++ f ++ g = a ++ b ++ c ++ (x ++ (e ++ f ++ g)) := by
    simp only [List.append_assoc]
  rw [← shown]
  exact ⟨_, _, middle _ _ _ _ _ _ _⟩

end

end Statement

/-! ## Values and words -/

section

variable {ks : List String}

/-- The items of a list lack the words that its literal lacks. -/
theorem lacks_of_mem_literals {items : List Json}
    (lacks : Lacks ks (", ".intercalate (literals items)).toList) :
    ∀ v ∈ items, Lacks ks (literal v).toList := by
  induction items with
  | nil => exact fun v hv => absurd hv List.not_mem_nil
  | cons v items ih =>
    cases items with
    | nil =>
      rw [literals, literals, String.intercalate_singleton] at lacks
      exact List.forall_mem_singleton.mpr lacks
    | cons w items =>
      rw [literals, literals, String.intercalate_cons_cons, String.toList_append, String.toList_append,
        List.append_assoc] at lacks
      obtain ⟨first, rest⟩ := (lacks_append_cons (c := ',') (by decide)).mp lacks
      exact List.forall_mem_cons.mpr ⟨first, ih ((lacks_cons (c := ' ') (by decide)).mp rest)⟩

theorem lacks_literal_arr {items : List Json} : Lacks ks (literal (.arr items)).toList ↔
    Lacks ks (", ".intercalate (literals items)).toList := by
  have closing : Lacks ks [')'] := (lacks_cons (by decide)).mpr lacks_nil
  have text : (literal (.arr items)).toList =
      '(' :: ((", ".intercalate (literals items)).toList ++ [')']) := by
    rw [literal]
    simp
  rw [text, lacks_cons (by decide), lacks_append (by decide), and_iff_left closing]

theorem lacks_literal_single {v : Json} (lacks : Lacks ks (literal v).toList) :
    Lacks ks (literal (.arr [v])).toList := by
  rw [lacks_literal_arr, literals, literals, String.intercalate_singleton]
  exact lacks

end

/-! ## Conditions with texts -/

/-- The operators that compare a column with one value. -/
def comparisons : List Operator :=
  [.equal, .notEqual, .notEqualAngled, .greater, .greaterOrEqual, .less, .lessOrEqual, .like, .notLike]

/-- A comparison with a text is a column, an operator and a literal. -/
theorem conditionPhrases_of_comparison {aliases : List (String × String)} {x : Condition String}
    (flat : x.subquery = none) (compares : x.operator ∈ comparisons) {v : String}
    (value : x.value = .str v) : conditionPhrases aliases x =
      [columnRef aliases x.table x.column, [.word x.operator.name], [.value (.str v)]] := by
  unfold conditionPhrases
  simp only [flat, value]
  generalize x.operator = o at compares ⊢
  cases o <;> first | rfl | exact absurd compares (by decide)

/-- A text as a condition of its own: normalised, with a new line at every connective in it. -/
def shownText (v : String) : List Char :=
  ['\n'].intercalate (conditionLines [] (normal (textLiteral v).toList) "  ".toList)

theorem shownText_eq_broken (v : String) :
    shownText v = ' ' :: broken "  ".toList (chunks (normal (textLiteral v).toList)) := by
  rw [shownText, intercalate_conditionLines _ _ (tidy_normal (firm_textLiteral v))]
  rfl

/-- A normalised text that connects nothing is a condition on one line. -/
theorem shownText_of_kept {v : String} (kept : normal (textLiteral v).toList = (textLiteral v).toList)
    (none : Clause.connective.findAll (textLiteral v).toList = []) :
    shownText v = ' ' :: (textLiteral v).toList := by
  have tidy : Tidy (textLiteral v).toList := kept ▸ tidy_normal (firm_textLiteral v)
  have alone : conditionLines [] (textLiteral v).toList "  ".toList =
      [' ' :: trim (textLiteral v).toList] := by
    rw [conditionLines, none, connectiveLines]
    rfl
  rw [shownText, kept, alone, List.intercalate_singleton, trim_eq tidy.first tidy.last]

/-- No comparison ends with a connective. -/
theorem not_connects_of_comparison {o : Operator} (compares : o ∈ comparisons) :
    ∀ k ∈ (chunks o.name.toList).getLast?, ¬ Connects k := by
  revert o
  decide

/-- A text behind a comparison is shown in the same lines within a condition as alone. -/
theorem infix_broken_rowChars {o : Operator} (compares : o ∈ comparisons) (v : String)
    {front behind : List Phrase} (indent : List Char)
    (firm : ∀ p ∈ front ++ ([.word o.name] :: [.value (.str v)] :: behind), FirmPhrase d p) :
    ' ' :: broken indent (chunks (normal (textLiteral v).toList)) <:+: broken indent
      (chunks (normal (rowChars d (front ++ ([.word o.name] :: [.value (.str v)] :: behind))))) := by
  have shown : normal (Phrase.chars d [.word o.name]) = o.name.toList :=
    (neutral_operator o).kept.trans (chars_word _)
  have text : Phrase.chars d [.value (.str v)] = (textLiteral v).toList :=
    Phrase.toList_text_singleton _
  -- Quotes are at both ends of the literal, so it neither starts nor ends with a connective.
  have quoted : (textLiteral v).toList = '\x27' :: (doubled '\x27' v.toList ++ ['\x27']) := by
    rw [textLiteral, String.toList_ofList]
    rfl
  have first : (normal (textLiteral v).toList).head?.any isWord = false := by
    rw [quoted, normal_cons (by decide)]
    rfl
  have last : (normal (textLiteral v).toList).getLast?.any isWord = false := by
    rw [quoted, ← List.cons_append, normal_append_cons (by decide), List.getLast?_append]
    rfl
  have operator : ∀ k ∈ (chunks (joined [o.name.toList])).getLast?, ¬ Connects k := by
    rw [joined, List.intercalate_singleton]
    exact not_connects_of_comparison compares
  have edge : ∀ k ∈ (chunks (joined ((front.map (Phrase.chars d)).map normal ++
      [o.name.toList]))).getLast?, ¬ Connects k := by
    rcases List.eq_nil_or_concat front with rfl | ⟨front, p, rfl⟩
    · exact operator
    · rw [joined_append (by simp) (List.cons_ne_nil _ _), chunks_space,
        List.getLast?_append_of_ne_nil _ (chunks_ne_nil _)]
      exact operator
  have row : ((front ++ ([.word o.name] :: [.value (.str v)] :: behind)).map
      (Phrase.chars d)).map normal = ((front.map (Phrase.chars d)).map normal ++ [o.name.toList]) ++
        normal (textLiteral v).toList :: (behind.map (Phrase.chars d)).map normal := by
    simp [shown, text]
  rw [normal_joined (List.forall_mem_map.mpr firm), row]
  exact infix_broken (tidy_normal (firm_textLiteral v)) first last
    (List.append_ne_nil_of_right_ne_nil _ (List.cons_ne_nil _ _)) edge

section

variable {c : Clauses String} (flat : Flat c) (h : Identified c)
include flat h

/-- A level is a settled statement with a condition. -/
theorem exists_filteredBy : ∃ s : Statement, s.Settled ∧
    (render d .compact (fragments d c)).toList =
      (s.filteredBy (rowChars d ((conditionFragments c.tableAliases (c.conditions.getD [])).map
        Fragment.phrase).tail)).chars := by
  have bare : Flat { c with conditions := none } :=
    ⟨flat.ctes, flat.unions, flat.source, flat.fields, flat.joins, List.forall_mem_nil _⟩
  have named : Identified { c with conditions := none } :=
    ⟨h.source, h.schema, h.fields, h.joins, List.forall_mem_nil _, h.groupings, h.sortings⟩
  refine ⟨statement d { c with conditions := none }, settled_statement bare named
    (List.forall_mem_nil _), ?_⟩
  rw [toList_render_eq_chars flat h]
  rfl

/-- A level has solid ends, and a text that a column is compared with is shown in the lines of a
condition of its own. -/
theorem shown_infix_formatChars {x : Condition String} (hx : x ∈ c.conditions.getD [])
    (compares : x.operator ∈ comparisons) {v : String} (value : x.value = .str v)
    (lacks : ∀ y ∈ c.conditions.getD [],
      Lacks Clause.filterClause.enders (literal y.value).toList) :
    Firm (render d .compact (fragments d c)).toList ∧
      shownText v <:+: formatChars (render d .compact (fragments d c)).toList := by
  obtain ⟨s, settled, text⟩ := exists_filteredBy (d := d) flat h
  obtain ⟨front, behind, phrases⟩ := exists_conditionFragments_eq c.tableAliases hx
  rw [conditionPhrases_of_comparison (flat.conditions x hx).1 compares value] at phrases
  -- The phrases of the condition have solid ends and lack the words that end it.
  have each : ∀ y ∈ c.conditions.getD [], ∀ p ∈ conditionPhrases c.tableAliases y, FirmPhrase d p ∧
      Lacks Clause.filterClause.enders (p.chars d) := fun y hy => by
    have column := (atom_column (d := d) h (h.conditions y hy).1 (h.conditions y hy).2).neutral
    have operator := neutral_operator (d := d) y.operator
    have and_ : NeutralPhrase d [.word "AND"] := neutral_connective .and
    refine forall_conditionPhrases (flat.conditions y hy)
      ⟨column.firm, column.lacks.mono (by decide)⟩ ⟨operator.firm, operator.lacks.mono (by decide)⟩
      (forall_operandPhrases (fun all => lacks_of_mem_literals (lacks_literal_arr.mp all))
        lacks_literal_single (fun {v} lacks => ⟨firm_value v, ?_⟩)
        ⟨and_.firm, and_.lacks.mono (by decide)⟩ _ (lacks y hy))
    rwa [Phrase.chars, Phrase.toList_text_singleton]
  have connective (w : Connective) : FirmPhrase d [.word w.name] ∧
      Lacks Clause.filterClause.enders (Phrase.chars d [.word w.name]) :=
    ⟨(neutral_connective w).firm, (neutral_connective w).lacks.mono (by decide)⟩
  obtain ⟨some, all⟩ : _ ∧ _ := by
    rcases (forall_conditionFragments connective each).phrases with none | ⟨more, split, some, all⟩
    · rw [none] at phrases
      cases phrases
    · rw [phrases] at split
      obtain ⟨-, rfl⟩ := List.cons.inj split
      exact And.intro some all
  rw [phrases, List.tail_cons] at text
  have reach : front ++ ([columnRef c.tableAliases x.table x.column, [.word x.operator.name],
      [.value (.str v)]] ++ behind) = (front ++ [columnRef c.tableAliases x.table x.column]) ++
        ([.word x.operator.name] :: [.value (.str v)] :: behind) := by
    simp only [List.append_assoc, List.cons_append, List.nil_append]
  rw [reach] at text some all
  generalize whole : (front ++ [columnRef c.tableAliases x.table x.column]) ++
    ([.word x.operator.name] :: [.value (.str v)] :: behind) = ps at text some all
  have firm : Firm (rowChars d ps) := firm_rowChars some fun p hp => (all p hp).1
  have open_ : Lacks Clause.filterClause.enders (normal (rowChars d ps)) :=
    lacks_normal.mpr (lacks_joined.mpr (List.forall_mem_map.mpr fun p hp => (all p hp).2))
  obtain ⟨above, below, lines⟩ := Statement.exists_clauseLines settled (tidy_normal firm) open_
  obtain ⟨ends, same⟩ := Statement.normal_filteredBy settled firm
  have where_ : conditionLines "WHERE".toList (normal (rowChars d ps)) "  ".toList ≠ [] :=
    List.cons_ne_nil _ _
  have nonempty : clauseLines (s.filteredBy (normal (rowChars d ps))).chars ≠ [] := by
    rw [lines]
    exact List.append_ne_nil_of_right_ne_nil _ (List.append_ne_nil_of_left_ne_nil where_ _)
  rw [text, Statement.formatChars_eq_intercalate ends same nonempty, lines]
  refine ⟨ends, List.IsInfix.trans ?_ (infix_intercalate where_ above below)⟩
  rw [shownText_eq_broken, intercalate_conditionLines _ _ (tidy_normal firm)]
  refine List.IsInfix.trans ?_ (List.suffix_append _ _).isInfix
  refine List.IsInfix.trans ?_ (List.suffix_cons _ _).isInfix
  subst whole
  exact infix_broken_rowChars compares v _ fun p hp => (all p hp).1

end

/-- A text that a column is compared with is shown in the lines of a condition of its own, in both
dialects and both layouts; if it is normalised and connects nothing, it is shown as it is. -/
theorem shown_infix_format (d : Dialect) (layout : Layout) {q : Query} (flat : Flat q.clauses)
    (identified : Identified q.clauses)
    (lacks : ∀ y ∈ q.clauses.conditions.getD [],
      Lacks Clause.filterClause.enders (literal y.value).toList)
    {x : Condition Query} (hx : x ∈ q.clauses.conditions.getD []) (compares : x.operator ∈ comparisons)
    {v : String} (value : x.value = .str v) :
    shownText v <:+: (format (generate d layout q)).toList ∧
      (normal (textLiteral v).toList = (textLiteral v).toList →
        Clause.connective.findAll (textLiteral v).toList = [] →
          (textLiteral v).toList <:+: (format (generate d layout q)).toList) := by
  have conditions := q.clauses.getD_conditions_map (compactText d)
  obtain ⟨firm, shown⟩ : Firm (generate d .compact q).toList ∧
      shownText v <:+: formatChars (generate d .compact q).toList :=
    shown_infix_formatChars (flat.map _) (identified.map _) (x := x.map (compactText d))
      (conditions ▸ List.mem_map_of_mem hx) compares value
      (conditions ▸ List.forall_mem_map.mpr lacks)
  rw [format, String.toList_ofList, formatChars_generate layout firm]
  refine ⟨shown, fun kept none => ?_⟩
  rw [shownText_of_kept kept none] at shown
  exact (List.suffix_cons _ _).isInfix.trans shown

/-! ### Songs by title -/

/-- The songs of a title. -/
def songsTitled (title : String) : Query :=
  .mk {
    source := { table := "songs", aliasName := "s" }
    fields := []
    joins := []
    conditions := some [{
      id := "c1", table := "songs", column := "title", operator := .equal, value := .str title }] }

theorem flat_songsTitled (title : String) : Flat (songsTitled title).clauses :=
  ⟨rfl, rfl, rfl, List.forall_mem_nil _, List.forall_mem_nil _,
    List.forall_mem_singleton.mpr ⟨rfl, nofun, nofun⟩⟩

theorem identified_songsTitled (title : String) : Identified (songsTitled title).clauses := by
  have names : ∀ s ∈ ["songs", "s", "title"], IsIdentifier s := by decide +kernel
  have songs : IsTableRef "songs" := Or.inl (names "songs" (by decide))
  have column : IsColumnRef "title" := Or.inr (names "title" (by decide))
  exact ⟨⟨songs, names "s" (by decide)⟩, rfl, List.forall_mem_nil _, List.forall_mem_nil _,
    List.forall_mem_singleton.mpr ⟨songs, column⟩, List.forall_mem_nil _, List.forall_mem_nil _⟩

/-- A connective in a title starts a new line; a title without any is shown as it is. -/
theorem shown_infix_format_songsTitled :
    (shownText "rock and roll" = " \x27rock\n  AND roll\x27".toList ∧ shownText "rock and roll" <:+:
      (format (generate .mysql .compact (songsTitled "rock and roll"))).toList) ∧
    (textLiteral "salt, peanuts").toList <:+:
      (format (generate .sqlServer .pretty (songsTitled "salt, peanuts"))).toList := by
  refine ⟨⟨by decide +kernel, ?_⟩, ?_⟩
  · refine (shown_infix_format .mysql .compact (flat_songsTitled _) (identified_songsTitled _)
      ?_ (List.mem_cons_self ..) (by decide) rfl).1
    exact List.forall_mem_singleton.mpr (by decide +kernel)
  · refine (shown_infix_format .sqlServer .pretty (flat_songsTitled _) (identified_songsTitled _)
      ?_ (List.mem_cons_self ..) (by decide) rfl).2 (by decide +kernel) (by decide +kernel)
    exact List.forall_mem_singleton.mpr (by decide +kernel)

/-- Formatting changes the title that is asked for. -/
theorem not_infix_format_songsTitled :
    (Flat (songsTitled "rock and roll").clauses ∧ Identified (songsTitled "rock and roll").clauses ∧
      ∃ x ∈ (songsTitled "rock and roll").clauses.conditions.getD [],
        x.operator ∈ comparisons ∧ x.value = .str "rock and roll") ∧
    ¬ (textLiteral "rock and roll").toList <:+:
      (format (generate .mysql .compact (songsTitled "rock and roll"))).toList := by
  refine ⟨⟨flat_songsTitled _, identified_songsTitled _, _, List.mem_cons_self .., by decide, rfl⟩, ?_⟩
  decide +kernel

end QueryWorkbench.Sql
