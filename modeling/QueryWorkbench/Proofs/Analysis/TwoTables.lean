/-
QueryWorkbench.Proofs.Analysis.TwoTables — what analysis finds where two tables are joined.

`JoinQuery` is a SELECT of everything from one table and another one joined to it, with an alias
behind each table and equalities between their columns as the condition. Of all its equalities the
report keeps the first one, because every two tables are related at most once
(`Named.analyze_text`); where the alias of the first table does not lead to it, none is kept.
-/
import QueryWorkbench.Proofs.Analysis.Findings
import QueryWorkbench.Proofs.Analysis.Scrubbing

namespace QueryWorkbench.Analysis

open Pattern Text

/-! ## A table with an alias behind it -/

/-- A table and its alias, as they are written without AS. -/
def asideText (table aliasName : String) : List Char :=
  table.toList ++ ' ' :: aliasName.toList

section

variable {table aliasName : String} (ht : IsName table) (ha : IsName aliasName)
  {before : Option Char} {position : Nat} {rest : List Char}

include ha in
/-- An alias is taken without AS in front. -/
theorem exists_first_asideAlias (edge : rest.head?.any isWord = false) :
    ∃ stop span, First tableAlias ⟨before, position, ' ' :: (aliasName.toList ++ rest)⟩ stop
        [(.aliasName, span)] ∧
      stop.position = position + (aliasName.toList.length + 1) ∧ stop.rest = rest ∧
      String.ofList span.chars = aliasName := by
  have words : AreWords reservedWords := by decide
  have sub : ∀ j ∈ reservedWords, j ∈ patternWords := fun j hj => List.mem_append_left _ hj
  have unblank : (aliasName.toList ++ rest).head?.any isBlank = false :=
    head?_isBlank_of_isWord ha.toList_ne_nil ha.isWord rest
  -- The alias may start with the letters of AS, but there is no blank behind them.
  have no_as : (all [keyword (σ := Part) "AS", someBlanks]).outcomes
      ⟨some ' ', position + 1, aliasName.toList ++ rest⟩ = [] := by
    refine Decidable.byContradiction fun some => ?_
    have starts : Starts (σ := Part) (seq (anyKeyword ["AS"]) someBlanks) ["AS"] :=
      starts_anyKeyword (by decide) needsEdge_blank
    obtain ⟨k, hk, spelled, -⟩ := starts _ some
    obtain rfl := List.mem_singleton.mp hk
    rw [leading_append_of_all ha.isWord edge] at spelled
    exact ha.not_spells (sub "AS" (by decide)) spelled
  refine ⟨_, _, ((first_someBlanks unblank).seq ((first_option_of_nil no_as).seq
    ((first_notAhead_name ha edge words sub).seq
      (first_keep_word ha.toList_ne_nil ha.isWord edge)))).option, ?_, rfl, ?_⟩
  · show position + 1 + aliasName.toList.length = _
    omega
  · simp

include ht ha in
/-- A table with its alias behind it is taken as it is written. -/
theorem exists_first_asideTable (edge : rest.head?.any isWord = false) :
    ∃ stop parts, First (seq tableName tableAlias)
        ⟨before, position, asideText table aliasName ++ rest⟩ stop parts ∧
      stop.position = position + (asideText table aliasName).length ∧ stop.rest = rest ∧
      ∀ start stop, mention ⟨start, stop, parts⟩ = .mentioned none table (some aliasName) := by
  have text : asideText table aliasName ++ rest =
      (fullName none table).toList ++ ' ' :: (aliasName.toList ++ rest) := by
    simp only [asideText, fullName, List.append_assoc, List.cons_append]
  have length : (asideText table aliasName).length =
      (fullName none table).toList.length + (aliasName.toList.length + 1) := by
    simp only [asideText, fullName, List.length_append, List.length_cons]
  obtain ⟨⟨mid_before, _, _⟩, parts, named, rfl, rfl, inner, outer, named_table, -⟩ :=
    @exists_first_tableName none table (by simp) ht before position
      (' ' :: (aliasName.toList ++ rest)) (by rfl) (by simp)
  obtain ⟨stop, span, aliased, stop_position, stop_rest, chars⟩ :=
    @exists_first_asideAlias aliasName ha mid_before
      (position + (fullName none table).toList.length) rest edge
  rw [text]
  refine ⟨stop, _, named.seq aliased, ?_, stop_rest, ?_⟩
  · rw [stop_position, length, Nat.add_assoc]
  · exact mention_of_parts outer inner named_table chars

include ht in
/-- A table starts with a word. -/
theorem head?_asideText (rest : List Char) :
    (asideText table aliasName ++ rest).head?.any isBlank = false := by
  rw [asideText, List.append_assoc]
  exact head?_isBlank_of_isWord ht.toList_ne_nil ht.isWord _

end

/-! ## Clean texts -/

/-- A text without quotes, comments and superfluous blanks. -/
structure Clean (s : List Char) : Prop where
  plain : ∀ c ∈ s, isPlain c = true
  tidy : Tidy s

namespace Clean

variable {s t : List Char}

/-- Scrubbing leaves a clean text as it is. -/
theorem scrubChars_eq (h : Clean s) : scrubChars s = s := by
  rw [scrubChars, (bares_of_plain h.plain).unquoteNames_strip, h.tidy.squeezed,
    trim_eq h.tidy.first h.tidy.last]

theorem append (h : Clean s) (k : Clean t) : Clean (s ++ t) :=
  ⟨fun c hc => (List.mem_append.mp hc).elim (h.plain c) (k.plain c), h.tidy.append k.tidy⟩

theorem space (h : Clean s) (k : Clean t) : Clean (s ++ ' ' :: t) := by
  refine ⟨fun c hc => ?_, h.tidy.space k.tidy⟩
  rcases List.mem_append.mp hc with hc | hc
  · exact h.plain c hc
  · rcases List.mem_cons.mp hc with rfl | hc
    · rfl
    · exact k.plain c hc

end Clean

theorem clean_of_isName {s : String} (h : IsName s) : Clean s.toList := by
  exact ⟨fun c hc => isPlain_of_isWord (h.isWord c hc),
    tidy_of_all h.toList_ne_nil fun c hc => not_isBlank_of_isWord (h.isWord c hc)⟩

theorem Equation.Named.clean {e : Equation} (h : e.Named) : Clean e.text := by
  have dot : Clean ['.'] := ⟨by decide, by decide⟩
  have sign : Clean ['='] := ⟨by decide, by decide⟩
  exact (clean_of_isName h.leftTable).append (dot.append ((clean_of_isName h.leftColumn).space
    (sign.space ((clean_of_isName h.rightTable).append (dot.append
      (clean_of_isName h.rightColumn))))))

theorem conditionText_cons (first e : Equation) (more : List Equation) :
    conditionText first (e :: more) =
      first.text ++ ' ' :: ("AND".toList ++ ' ' :: conditionText e more) := by
  simp only [conditionText, List.flatMap_cons, List.append_assoc, List.cons_append]

theorem clean_conditionText {first : Equation} {more : List Equation} (first_named : first.Named)
    (named : ∀ e ∈ more, e.Named) : Clean (conditionText first more) := by
  have and_ : Clean "AND".toList := ⟨by decide, by decide⟩
  induction more generalizing first with
  | nil =>
    rw [conditionText, List.flatMap_nil, List.append_nil]
    exact first_named.clean
  | cons e more ih =>
    rw [conditionText_cons]
    exact first_named.clean.space (and_.space (ih (named e (List.mem_cons_self ..))
      fun d hd => named d (List.mem_cons_of_mem _ hd)))

/-! ## The query -/

/-- A SELECT of everything from a table and another one joined to it, each with its alias, where a
column of the one equals a column of the other, pair by pair. -/
structure JoinQuery where
  left : String
  leftAlias : String
  right : String
  rightAlias : String
  first : String × String
  more : List (String × String)

namespace JoinQuery

variable (q : JoinQuery)

/-- All pairs of columns that the query compares. -/
def pairs : List (String × String) := q.first :: q.more

/-- The comparison of two columns as SQL text. -/
def comparison (p : String × String) : String :=
  q.leftAlias ++ "." ++ p.1 ++ " = " ++ q.rightAlias ++ "." ++ p.2

/-- The query as SQL text. -/
def text : String :=
  "SELECT * FROM " ++ q.left ++ " " ++ q.leftAlias ++ " JOIN " ++ q.right ++ " " ++ q.rightAlias
    ++ " ON " ++ " AND ".intercalate (q.pairs.map q.comparison)

/-- A query made of names. -/
structure Named : Prop where
  left : IsName q.left
  leftAlias : IsName q.leftAlias
  right : IsName q.right
  rightAlias : IsName q.rightAlias
  pairs : ∀ p ∈ q.pairs, IsName p.1 ∧ IsName p.2

/-- The equality of two columns. -/
def equation (p : String × String) : Equation :=
  ⟨none, q.leftAlias, p.1, none, q.rightAlias, p.2⟩

/-- The condition of the join. -/
def condition : List Char := conditionText (q.equation q.first) (q.more.map q.equation)

/-- What stands before FROM. -/
def front : List Char := "SELECT".toList ++ ' ' :: ['*']

/-- FROM with its table. -/
def origin : List Char := "FROM".toList ++ ' ' :: asideText q.left q.leftAlias

/-- JOIN with its table. -/
def head : List Char := "JOIN".toList ++ ' ' :: asideText q.right q.rightAlias

/-- ON with the condition. -/
def limb : List Char := "ON".toList ++ ' ' :: q.condition

/-- The query as characters. -/
def chars : List Char := front ++ ' ' :: (q.origin ++ ' ' :: (q.head ++ ' ' :: q.limb))

theorem toList_comparison (p : String × String) :
    (q.comparison p).toList = (q.equation p).text := by
  simp [comparison, equation, Equation.text]

theorem toList_condition :
    (" AND ".intercalate (q.pairs.map q.comparison)).toList = q.condition := by
  have and_ : " AND ".toList = ' ' :: ("AND".toList ++ [' ']) := by decide
  have walk (p : String × String) (more : List (String × String)) :
      (" AND ".intercalate (q.comparison p :: more.map q.comparison)).toList =
        conditionText (q.equation p) (more.map q.equation) := by
    induction more generalizing p with
    | nil =>
      rw [List.map_nil, String.intercalate_singleton, toList_comparison]
      exact (List.append_nil _).symm
    | cons r more ih =>
      rw [List.map_cons, String.intercalate_cons_cons, String.toList_append, String.toList_append,
        ih, toList_comparison, and_, List.map_cons, conditionText_cons]
      simp only [List.append_assoc, List.cons_append, List.nil_append]
  exact walk q.first q.more

theorem toList_text : q.text.toList = q.chars := by
  have select : "SELECT * FROM ".toList =
      "SELECT".toList ++ ' ' :: '*' :: ' ' :: ("FROM".toList ++ [' ']) := by decide
  have join : " JOIN ".toList = ' ' :: ("JOIN".toList ++ [' ']) := by decide
  have on : " ON ".toList = ' ' :: ("ON".toList ++ [' ']) := by decide
  have space : " ".toList = [' '] := by decide
  delta text chars front
  simp only [String.toList_append, toList_condition, select, join, on, space, origin, head, limb,
    asideText, List.append_assoc, List.cons_append, List.nil_append]

/-! ## The searches, part by part -/

section

variable {q} (h : q.Named)
include h

theorem Named.equation {p : String × String} (hp : p ∈ q.pairs) : (q.equation p).Named :=
  ⟨rfl, h.leftAlias, (h.pairs p hp).1, rfl, h.rightAlias, (h.pairs p hp).2⟩

theorem Named.first : (q.equation q.first).Named := h.equation (List.mem_cons_self ..)

theorem Named.more : ∀ e ∈ q.more.map q.equation, e.Named := by
  intro e he
  obtain ⟨p, hp, rfl⟩ := List.mem_map.mp he
  exact h.equation (List.mem_cons_of_mem _ hp)

section

variable {ks : List String} (sub : ∀ k ∈ ks, k ∈ patternWords)
include sub

theorem Named.lacks_origin (other : Lacks ks "FROM".toList) : Lacks ks q.origin := by
  rw [origin, asideText, lacks_append_space, lacks_append_space]
  exact ⟨other, h.left.lacks sub, h.leftAlias.lacks sub⟩

theorem Named.lacks_head (other : Lacks ks "JOIN".toList) : Lacks ks q.head := by
  rw [head, asideText, lacks_append_space, lacks_append_space]
  exact ⟨other, h.right.lacks sub, h.rightAlias.lacks sub⟩

theorem Named.lacks_limb (on : Lacks ks "ON".toList) (and_ : Lacks ks "AND".toList) :
    Lacks ks q.limb := by
  rw [limb, lacks_append_space]
  exact ⟨on, lacks_conditionText h.first h.more sub and_⟩

end

/-- One table is found after FROM. -/
theorem Named.exists_findAll_fromTable :
    ∃ m, fromTable.findAll q.chars = [m] ∧ mention m = .mentioned none q.left (some q.leftAlias) ∧
      m.start.position = (front ++ [' ']).length ∧ m.stop.rest = ' ' :: (q.head ++ ' ' :: q.limb) := by
  have words : ∀ k ∈ ["FROM"], k ∈ patternWords := by decide
  have behind : Lacks ["FROM"] (' ' :: (q.head ++ ' ' :: q.limb)) := by
    rw [lacks_space, lacks_append_space]
    exact ⟨h.lacks_head words (by decide), h.lacks_limb words (by decide) (by decide)⟩
  obtain ⟨stop, parts, taken, length, rest, reads⟩ := @exists_first_asideTable _ _ h.left
    h.leftAlias (some ' ') (0 + front.length + 1 + 4 + 1) (' ' :: (q.head ++ ' ' :: q.limb)) (by rfl)
  have found : First fromTable ⟨some ' ', 0 + front.length + 1,
      q.origin ++ ' ' :: (q.head ++ ' ' :: q.limb)⟩ stop parts := by
    rw [origin, List.append_assoc, List.cons_append]
    exact (first_wordEdge (by rfl)).andThen ((first_keyword (by decide)).andThen
      ((first_someBlanks (head?_asideText h.left _)).andThen taken))
  refine ⟨⟨⟨some ' ', 0 + front.length + 1, q.origin ++ ' ' :: (q.head ++ ' ' :: q.limb)⟩, stop,
    parts⟩, ?_, reads _ _, ?_, rest⟩
  · rw [findAll_eq, chars, opens_fromTable.matchesFrom_append (by decide) (by rfl),
      opens_fromTable.matchesFrom_edge (by decide),
      matchesFrom_take (w := q.origin) (by simp [origin]) found ?_,
      opens_fromTable.matchesFrom_eq_nil behind]
    rw [length, origin, List.length_append, List.length_cons]
    show _ = _ + (4 + _)
    omega
  · simp

/-- One table is found after JOIN. -/
theorem Named.map_mention_findAll_joinTable :
    (joinTable.findAll q.chars).map mention = [.mentioned none q.right (some q.rightAlias)] := by
  have words : ∀ k ∈ joinWords, k ∈ patternWords := by decide
  have before_lacks : Lacks joinWords (front ++ ' ' :: q.origin) :=
    lacks_append_space.mpr ⟨by decide, h.lacks_origin words (by decide)⟩
  have behind : Lacks joinWords (' ' :: q.limb) :=
    lacks_space.mpr (h.lacks_limb words (by decide) (by decide))
  have text : q.chars = (front ++ ' ' :: q.origin) ++ ' ' :: (q.head ++ ' ' :: q.limb) := by
    simp only [chars, List.append_assoc, List.cons_append]
  rw [findAll_eq, text, opens_joinTable.matchesFrom_append before_lacks (by rfl),
    opens_joinTable.matchesFrom_edge (by decide)]
  generalize 0 + (front ++ ' ' :: q.origin).length + 1 = position
  obtain ⟨stop, parts, taken, length, rest, reads⟩ := @exists_first_asideTable _ _ h.right
    h.rightAlias (some ' ') (position + 4 + 1) (' ' :: q.limb) (by rfl)
  have found : First joinTable ⟨some ' ', position, q.head ++ ' ' :: q.limb⟩ stop parts := by
    rw [head, List.append_assoc, List.cons_append]
    exact (first_wordEdge (by rfl)).andThen ((first_option_of_nil (by rfl)).andThen
      ((first_keyword (by decide)).andThen
        ((first_someBlanks (head?_asideText h.right _)).andThen taken)))
  rw [matchesFrom_take (w := q.head) (by simp [head]) found ?_,
    opens_joinTable.matchesFrom_eq_nil behind, List.map_singleton, reads]
  rw [length, head, List.length_append, List.length_cons]
  show _ = _ + (4 + _)
  omega

/-- One condition is found after ON. -/
theorem Named.map_body_findAll_onCondition :
    (onCondition.findAll q.chars).map (·.part .body) = [q.condition] := by
  have words : ∀ k ∈ ["ON"], k ∈ patternWords := by decide
  have before_lacks : Lacks ["ON"] (front ++ ' ' :: (q.origin ++ ' ' :: q.head)) := by
    rw [lacks_append_space, lacks_append_space]
    exact ⟨by decide, h.lacks_origin words (by decide), h.lacks_head words (by decide)⟩
  have text : q.chars = (front ++ ' ' :: (q.origin ++ ' ' :: q.head)) ++ ' ' :: q.limb := by
    simp only [chars, List.append_assoc, List.cons_append]
  rw [findAll_eq, text, opens_onCondition.matchesFrom_append before_lacks (by rfl),
    opens_onCondition.matchesFrom_edge (by decide)]
  generalize 0 + (front ++ ' ' :: (q.origin ++ ' ' :: q.head)).length + 1 = position
  obtain ⟨stop, parts, found, length, reads⟩ := @exists_first_onCondition (some ' ') position
    q.condition [] (unended_conditionText h.first h.more) endsCondition_nil
    (head?_conditionText h.first _) (by rfl)
  have taken := matchesFrom_take (by simp) found length
  rw [List.append_nil] at taken
  rw [limb, taken, List.map_cons, reads]
  rfl

/-! ## Scanning -/

omit h in
/-- The tables of the query. -/
def entrants (q : JoinQuery) : List Entrant :=
  [⟨none, q.left, q.leftAlias⟩, ⟨none, q.right, q.rightAlias⟩]

theorem Named.surface_chars {limit : Int} (some : 1 ≤ limit) :
    surface limit q.chars = q.entrants.map Entrant.event := by
  obtain ⟨m, found, mentions, position, rest⟩ := h.exists_findAll_fromTable
  have joined := h.map_mention_findAll_joinTable
  have froms_le : ((fromTable.findAll q.chars).length : Int) ≤ limit := by
    rw [found]
    exact some
  have joins_le : ((joinTable.findAll q.chars).length : Int) ≤ limit := by
    rw [← List.length_map (f := mention), joined]
    exact some
  have outside : callPositions q.chars [(m.start.position : Int)] = [] := by
    have text : q.chars = (front ++ [' ']) ++ (q.origin ++ ' ' :: (q.head ++ ' ' :: q.limb)) := by
      simp only [chars, List.append_assoc, List.singleton_append]
    rw [position, text]
    exact callPositions_eq_nil (balanced_of_calm (by decide))
  have alone : fromTables m = [.mentioned none q.left (Option.some q.leftAlias)] := by
    rw [fromTables, mentions, commaTables_of_words (Or.inr ⟨'J', _, rest, by decide⟩)]
  rw [surface, SelectText.bounded_of_le froms_le, SelectText.bounded_of_le joins_le, found]
  simp [outside, alone, joined, entrants, Entrant.event]

/-- A scan comes across the two tables. -/
theorem Named.scanStatement_chars {limit : Int} (some : 1 ≤ limit) (maxDepth : Int) :
    scanStatement limit maxDepth q.chars = q.entrants.map Entrant.event := by
  have words : ∀ k ∈ ["SELECT"], k ∈ patternWords := by decide
  have text : q.chars = "SELECT".toList ++
      ' ' :: ('*' :: ' ' :: (q.origin ++ ' ' :: (q.head ++ ' ' :: q.limb))) := by
    delta chars front
    simp only [List.append_assoc, List.cons_append, List.nil_append]
  have lacks : Lacks ["SELECT"]
      (' ' :: ('*' :: ' ' :: (q.origin ++ ' ' :: (q.head ++ ' ' :: q.limb)))) := by
    rw [lacks_space, lacks_cons (by decide), lacks_space, lacks_append_space, lacks_append_space]
    exact ⟨h.lacks_origin words (by decide), h.lacks_head words (by decide),
      h.lacks_limb words (by decide) (by decide)⟩
  have no_with : withHead.matchAt? (Place.start q.chars) = none := by
    rw [text]
    exact matchAt?_eq_none (by rfl)
  have flat : nestedQueries limit q.chars = ([], []) := by
    rw [text]
    exact nestedQueries_eq_nil limit (by decide) lacks
  rw [scanStatement, no_with]
  cases maxDepth.toNat with
  | zero => simp [scan, flat, h.surface_chars some]
  | succ levels => simp [scan, flat, h.surface_chars some]

theorem Named.clean : Clean q.chars := by
  have select : Clean front := ⟨by decide, by decide⟩
  have from_ : Clean "FROM".toList := ⟨by decide, by decide⟩
  have join : Clean "JOIN".toList := ⟨by decide, by decide⟩
  have on : Clean "ON".toList := ⟨by decide, by decide⟩
  have origin : Clean q.origin :=
    from_.space ((clean_of_isName h.left).space (clean_of_isName h.leftAlias))
  have head : Clean q.head :=
    join.space ((clean_of_isName h.right).space (clean_of_isName h.rightAlias))
  have limb : Clean q.limb := on.space (clean_conditionText h.first h.more)
  exact select.space (origin.space (head.space limb))

/-! ## The report -/

omit h in
/-- Whether the alias of the first table leads to it. An alias leads to the last table that goes by
it, with its alias or its own name, in any case. -/
def leads (q : JoinQuery) : Bool :=
  !sameName q.rightAlias q.leftAlias && !sameName q.right q.leftAlias

omit h in
/-- The pair of tables that the equality of two columns relates. -/
def joined (q : JoinQuery) (p : String × String) : JoinedPair :=
  ⟨q.left, q.right, some (q.left ++ "." ++ p.1 ++ " = " ++ q.right ++ "." ++ p.2), some p.1, some p.2⟩

omit h in
/-- What the tables of the query add up to. -/
def findings (q : JoinQuery) : Findings :=
  ⟨(q.entrants.map Entrant.full).reverse, q.entrants.foldl Entrant.enter [], []⟩

omit h in
theorem findings_aliases : q.findings.aliases = q.entrants.foldl Entrant.enter [] := by
  rw [findings]

omit h in
theorem resolve_leftAlias :
    q.findings.resolve none q.leftAlias = if q.leads then q.left else q.right := by
  rw [Findings.resolve, findings_aliases, get?_foldl_enter_eq]
  have right : Entrant.goesBy (lower q.leftAlias) ⟨none, q.right, q.rightAlias⟩ = !q.leads := by
    simp [Entrant.goesBy, leads, sameName]
  have left : Entrant.goesBy (lower q.leftAlias) ⟨none, q.left, q.leftAlias⟩ = true := by
    simp [Entrant.goesBy]
  cases leads : q.leads <;> simp [leads, entrants, left, right, Entrant.full, fullName]

omit h in
theorem resolve_rightAlias : q.findings.resolve none q.rightAlias = q.right := by
  have right : Entrant.goesBy (lower q.rightAlias) ⟨none, q.right, q.rightAlias⟩ = true := by
    simp [Entrant.goesBy]
  rw [Findings.resolve, findings_aliases, get?_foldl_enter_eq]
  simp [entrants, right, Entrant.full, fullName]

omit h in
/-- An equality relates the two tables if the alias of the first one leads to it. -/
theorem relate_equation (apart : lower q.left ≠ lower q.right) (p : String × String) :
    q.findings.relate (q.equation p) = if q.leads then some (q.joined p) else none := by
  have undefined : q.findings.defined = [] := by rw [findings]
  have left := resolve_leftAlias (q := q)
  have right := resolve_rightAlias (q := q)
  generalize q.findings = f at undefined left right ⊢
  cases leads : q.leads with
  | true =>
    rw [leads, if_pos rfl] at left
    simp [Findings.relate, equation, undefined, left, right, apart, joined]
  | false =>
    rw [leads, if_neg Bool.false_ne_true] at left
    simp [Findings.relate, equation, undefined, left, right]

omit h in
/-- Pairs of tables that are related already are not related again. -/
theorem firstPairs_eq_nil {seen : List (String × String)} {rest : List JoinedPair}
    (all : ∀ j ∈ rest, (lower j.source, lower j.target) ∈ seen) : firstPairs seen rest = [] := by
  induction rest with
  | nil => rfl
  | cons j rest ih =>
    have known := all j (List.mem_cons_self ..)
    rw [firstPairs_cons, if_pos (by simp [known])]
    exact ih fun k hk => all k (List.mem_cons_of_mem _ hk)

omit h in
/-- All equalities relate the same two tables, so the first one stands for them all. -/
theorem firstPairs_relate (apart : lower q.left ≠ lower q.right) :
    firstPairs [] ((q.pairs.map q.equation).filterMap q.findings.relate) =
      if q.leads then [q.joined q.first] else [] := by
  have related (p : String × String) := relate_equation apart p
  generalize q.findings = f at related ⊢
  rw [List.filterMap_map]
  cases leads : q.leads with
  | true =>
    have all : q.pairs.filterMap (f.relate ∘ q.equation) = q.pairs.map q.joined := by
      rw [← List.filterMap_eq_map]
      refine List.filterMap_congr fun p _ => ?_
      rw [Function.comp_apply, related, leads, if_pos rfl, Function.comp_apply]
    rw [all, if_pos rfl, pairs, List.map_cons, firstPairs_cons, if_neg (by simp), firstPairs_eq_nil]
    intro j hj
    obtain ⟨p, -, rfl⟩ := List.mem_map.mp hj
    exact List.mem_cons_self ..
  | false =>
    have none_related : q.pairs.filterMap (f.relate ∘ q.equation) = [] := by
      refine List.filterMap_eq_nil_iff.mpr fun p _ => ?_
      rw [Function.comp_apply, related, leads, if_neg Bool.false_ne_true]
    rw [none_related, if_neg Bool.false_ne_true]
    rfl

/-- The joins of the query are those of its equalities. -/
theorem Named.joinsOf_chars (f : Findings) {limit : Int} (some : 1 ≤ limit) :
    joinsOf limit f q.chars =
      (firstPairs [] ((q.pairs.map q.equation).filterMap f.relate), []) := by
  have bodies := h.map_body_findAll_onCondition
  have le : ((onCondition.findAll q.chars).length : Int) ≤ limit := by
    rw [← List.length_map (f := (·.part .body)), bodies]
    exact some
  have flat : (onCondition.findAll q.chars).flatMap (fun m => equality.findAll (m.part .body)) =
      equality.findAll q.condition := by
    have mapped := congrArg (List.flatMap equality.findAll) bodies
    rwa [List.flatMap_map, List.flatMap_singleton] at mapped
  have equations : (equality.findAll q.condition).map Equation.ofMatch = q.pairs.map q.equation :=
    map_ofMatch_findAll h.first h.more
  rw [joinsOf, SelectText.bounded_of_le le]
  show (firstPairs [] (List.filterMap f.relate? _), []) = _
  rw [flat, ← equations, List.filterMap_map, Findings.relate?_eq]
  rfl

/-- The analysis of the query gives no warning. Of all its equalities it reports the first one, and
that if the alias of the first table leads to it. -/
theorem Named.analyze_text (apart : lower q.left ≠ lower q.right) {limits : Limits}
    (short : (q.text.length : Int) ≤ limits.maxLength) (some : 1 ≤ limits.maxMatches) :
    ∃ report, analyze limits q.text = (report, []) ∧
      report.joins = if q.leads then [q.joined q.first] else [] := by
  have added : (q.entrants.map Entrant.event).foldl Findings.add {} = q.findings :=
    foldl_add q.entrants
  have joins := firstPairs_relate apart
  generalize q.findings = f at added joins
  have found : reportOf limits q.chars = (⟨f.uniqueTables, if q.leads then [q.joined q.first] else [],
      f.aliases⟩, q.entrants.map Entrant.event) := by
    rw [reportOf, h.scanStatement_chars some, added, h.joinsOf_chars f some, joins]
    exact Prod.ext rfl (List.append_nil _)
  refine ⟨⟨f.uniqueTables, if q.leads then [q.joined q.first] else [], f.aliases⟩, ?_, rfl⟩
  rw [analyze, if_neg (Int.not_lt.mpr short), toList_text, h.clean.scrubChars_eq, found]
  exact congrArg (Prod.mk _) (SelectText.warningsOf_events limits q.entrants)

end

end JoinQuery

end QueryWorkbench.Analysis
