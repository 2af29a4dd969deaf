/-
QueryWorkbench.Proofs.Sql.JoinMatch — SELECT, joins and paging are matched as written.

The patterns of these clauses keep more than one part or come in several forms: SELECT may have a
number of rows in front of what it lists, a join has a side, a table and a condition, and paging is
written in two ways.
-/
import QueryWorkbench.Proofs.Analysis.Enclosed
import QueryWorkbench.Proofs.Sql.ClauseMatch

namespace QueryWorkbench.Sql

open Analysis Pattern Text

variable {before : Option Char} {position : Nat} {r : List Char}

/-! ## Numbers -/

/-- A number, as characters. -/
abbrev natural (n : Nat) : List Char := (toString n).toList

theorem toList_toString (n : Nat) : natural n = Nat.toDigits 10 n := Nat.toList_repr

theorem isDigit_of_mem_natural {n : Nat} {c : Char} (hc : c ∈ natural n) : c.isDigit = true := by
  rw [toList_toString] at hc
  exact Nat.isDigit_of_mem_toDigits (by decide) (by decide) hc

/-- What holds of the ten digits holds of all characters of a number. -/
theorem forall_mem_natural {P : Char → Prop} [DecidablePred P] (n : Nat)
    (digits : ∀ c ∈ "0123456789".toList, P c) : ∀ c ∈ natural n, P c := by
  intro c hc
  have bounds := Char.isDigit_iff_toNat.mp (isDigit_of_mem_natural hc)
  have listed : ∀ k < 58, 48 ≤ k → Char.ofNat k ∈ "0123456789".toList := by decide
  have digit := listed c.toNat (Nat.lt_succ_of_le bounds.2) bounds.1
  rw [Char.ofNat_toNat] at digit
  exact digits c digit

theorem natural_ne_nil (n : Nat) : natural n ≠ [] := by
  rw [toList_toString]
  exact Nat.toDigits_ne_nil

/-- A number is taken to its end. -/
theorem consumes_digits (n : Nat) (edge : r.head?.any isDigit = false) :
    Consumes (digits (σ := Piece)) (natural n) r := fun _ _ =>
  ⟨_, first_run (natural_ne_nil n) (forall_mem_natural n (by decide)) edge⟩

theorem head?_natural (n : Nat) (r : List Char) : (natural n ++ r).head?.any isBlank = false := by
  obtain ⟨c, s, split⟩ := List.exists_cons_of_ne_nil (natural_ne_nil n)
  have solid : ∀ c ∈ natural n, isBlank c = false := forall_mem_natural n (by decide)
  rw [split] at solid ⊢
  exact solid c (List.mem_cons_self ..)

/-! ## SELECT -/

namespace Clause

/-- The number of rows in front of what SELECT lists. -/
def topChars (n : Nat) : List Char := "TOP".toList ++ ' ' :: natural n

theorem tidy_topChars (n : Nat) : Tidy (topChars n) :=
  Tidy.space (by decide) (tidy_of_all (natural_ne_nil n) (forall_mem_natural n (by decide)))

/-- What SELECT lists, with the number of rows in front. -/
def listText (top : Option Nat) (items : List Char) : List Char :=
  match top with
  | some n => topChars n ++ ' ' :: items
  | none => items

/-- The pattern of a number of rows. -/
def topPattern : Pattern Piece := all [keyword "TOP", someBlanks, digits, someBlanks]

theorem starts_topPattern : Starts topPattern ["TOP"] := by
  have starts : Starts (seq (anyKeyword (σ := Piece) ["TOP"]) (seq someBlanks (seq digits someBlanks)))
      ["TOP"] := starts_anyKeyword (by decide) (needsEdge_someBlanks _)
  exact starts

theorem consumes_topPattern (n : Nat) (edge : r.head?.any isBlank = false) :
    Consumes topPattern (topChars n ++ [' ']) r := by
  have text : topChars n ++ [' '] = "TOP".toList ++ ([' '] ++ (natural n ++ [' '])) := by
    rw [topChars, List.append_assoc]
    rfl
  have unblank : (natural n ++ [' '] ++ r).head?.any isBlank = false := by
    rw [List.append_assoc]
    exact head?_natural n _
  rw [text]
  exact (consumes_keyword (by decide) _).seq ((consumes_space unblank).seq
    ((consumes_digits n (by rfl)).seq (consumes_space edge)))

/-- SELECT is found with what it lists and the number of rows. -/
theorem exists_search?_select (top : Option Nat) {items r : List Char}
    (lacks : Lacks ["TOP", "FROM"] items) (tidy : Tidy items) (edge : r.head?.any isWord = false)
    (ends : ∀ before position, (afterBlanks (keyword "FROM")).outcomes ⟨before, position, r⟩ ≠ []) :
    ∃ m, select.search? ("SELECT".toList ++ ' ' :: (listText top items ++ r)) = some m ∧
      m.part .items = items ∧ (m.part? .top).map trim = top.map topChars := by
  have ended : EndedBy (afterBlanks (keyword "FROM")) ["FROM"] :=
    endedBy_keyword (by decide) (by decide)
  have listed (before : Option Char) (position : Nat) := (reaches_body .items ended.ahead
    (lacks.mono (by decide)) tidy edge before position).seq
      (first_ahead_of_keepsNothing (by repeat' constructor) (ends _ _))
  have start (r : List Char) : First (wordEdge (σ := Piece)) (.start ("SELECT".toList ++ ' ' :: r))
      (.start ("SELECT".toList ++ ' ' :: r)) [] := first_wordEdge (by rfl)
  have unblank := head?_body tidy r
  cases top with
  | none =>
    have none : (keep Piece.top topPattern).outcomes ⟨some ' ', 0 + "SELECT".toList.length + 1,
        items ++ r⟩ = [] := (starts_topPattern.keep .top).outcomes_eq_nil (lacks.mono (by decide)) edge
    have found : First select (.start ("SELECT".toList ++ ' ' :: (items ++ r))) _ _ :=
      (start _).andThen ((first_keyword (by decide)).andThen ((first_someBlanks unblank).andThen
        ((first_option_of_nil none).andThen (listed _ _))))
    rw [listText]
    refine ⟨_, found.search?, ?_, ?_⟩
    · simp [Match.part, Match.part?, Assoc.get?, Span.chars]
    · simp [Match.part?, Assoc.get?]
  | some n =>
    have text : topChars n ++ ' ' :: (items ++ r) = topChars n ++ [' '] ++ (items ++ r) := by
      rw [List.append_assoc, List.singleton_append]
    have unblank_top : (topChars n ++ [' '] ++ (items ++ r)).head?.any isBlank = false := by rfl
    obtain ⟨behind, taken⟩ := consumes_topPattern n unblank (some ' ') (0 + "SELECT".toList.length + 1)
    have counted := (taken.keep Piece.top).option
    have found : First select (.start ("SELECT".toList ++ ' ' :: (topChars n ++ [' '] ++
        (items ++ r)))) _ _ :=
      (start _).andThen ((first_keyword (by decide)).andThen ((first_someBlanks unblank_top).andThen
        (counted.seq (listed _ _))))
    have shown : trim ((topChars n ++ ' ' :: (items ++ r)).take ((topChars n).length + 1)) =
        topChars n := by
      rw [List.take_length_add_append, List.take_succ_cons, List.take_zero,
        trim_append_of_blank (by decide), trim_eq (tidy_topChars n).first (tidy_topChars n).last]
    rw [listText, List.append_assoc, List.cons_append, text]
    refine ⟨_, found.search?, ?_, ?_⟩
    · simp [Match.part, Match.part?, Assoc.get?, Span.chars]
    · simpa [Match.part?, Assoc.get?, Span.chars] using shown

/-! ## Joins -/

/-- A join with its table and its condition. -/
structure JoinClause where
  kind : JoinKind
  table : List Char
  condition : List Char

namespace JoinClause

/-- A join as it is written behind a space. -/
def text (j : JoinClause) : List Char :=
  j.kind.name.toList ++ ' ' :: ("JOIN".toList ++ ' ' :: (j.table ++ ' ' :: ("ON".toList ++
    ' ' :: j.condition)))

/-- The lines that a join is laid out in. -/
def lines (j : JoinClause) : List (List Char) :=
  (' ' :: ' ' :: (j.kind.name.toList ++ ' ' :: ("JOIN".toList ++ ' ' :: j.table))) ::
    conditionLines "    ON".toList j.condition "    ".toList

/-- A join that nothing ends before its own end. -/
structure Settled (j : JoinClause) : Prop where
  table_lacks : Lacks ("ON" :: tableEnders) j.table
  table_tidy : Tidy j.table
  condition_lacks : Lacks tableEnders j.condition
  condition_tidy : Tidy j.condition

end JoinClause

theorem opens_join : Opens join joinWords := by
  have word (rest : Pattern Piece) : Starts (seq (keyword "JOIN") (seq someBlanks rest)) ["JOIN"] := by
    have starts : Starts (seq (anyKeyword ["JOIN"]) (seq someBlanks rest)) ["JOIN"] :=
      starts_anyKeyword (by decide) (needsEdge_someBlanks rest)
    exact starts
  have both (rest : Pattern Piece) : Starts (seq (option (seq (keep Piece.side sideWord) someBlanks))
      (seq (keyword "JOIN") (seq someBlanks rest))) joinWords :=
    starts_seq_option (starts_side.seq_keep .side) (word rest)
  exact (both _).opens

/-- The pattern of a join condition. -/
def onPattern : Pattern Piece := all [someBlanks, keyword "ON", someBlanks, keep .condition someLazy]

theorem endedBy_onPattern : EndedBy (seq (option onPattern) fromEnd) ("ON" :: tableEnders) := by
  have starts (rest : Pattern Piece) :
      Starts (seq (anyKeyword ["ON"]) (seq someBlanks rest)) ["ON"] :=
    starts_anyKeyword (by decide) (needsEdge_someBlanks rest)
  have on_ : EndedBy onPattern ("ON" :: tableEnders) :=
    endedBy_someBlanks ((starts _).mono fun _ hj => List.mem_singleton.mp hj ▸ List.mem_cons_self ..)
  have stop : EndedBy fromEnd ("ON" :: tableEnders) :=
    endedBy_tableStop.ahead.mono fun _ hk => List.mem_cons_of_mem _ hk
  exact endedBy_seq_option on_ stop

/-- A join condition is taken to its end. -/
theorem reaches_onPattern {condition : List Char} (lacks : Lacks tableEnders condition)
    (tidy : Tidy condition) (edge : r.head?.any isWord = false) :
    Reaches (option onPattern) fromEnd
      ⟨before, position, ' ' :: ("ON".toList ++ ' ' :: (condition ++ r))⟩
      ⟨condition.getLast?.or (some ' '), position + 1 + "ON".toList.length + 1 + condition.length, r⟩
      [(.condition, ⟨⟨some ' ', position + 1 + "ON".toList.length + 1, condition ++ r⟩,
        condition.length⟩)] := by
  have word : First (keyword (σ := Piece) "ON") ⟨some ' ', position + 1, "ON".toList ++
      ' ' :: (condition ++ r)⟩ _ [] := first_keyword (by decide)
  have body := reaches_body (q := fromEnd) .condition endedBy_tableStop.ahead lacks tidy edge (some ' ')
    (position + 1 + "ON".toList.length + 1)
  exact ((first_someBlanks (by rfl)).reaches (word.reaches
    ((first_someBlanks (head?_body tidy r)).reaches body))).option

variable {j : JoinClause}

/-- A join is taken as it is written. -/
theorem exists_first_join (h : j.Settled)
    (followed : Followed (joinKeys ++ ["WHERE", "GROUP BY", "ORDER BY", "LIMIT"]) r)
    (outside : before.any isWord = false) :
    ∃ stop parts, First join ⟨before, position, j.text ++ r⟩ stop parts ∧
      stop.position = position + j.text.length ∧
      ∀ start stop, joinLines ⟨start, stop, parts⟩ = j.lines := by
  generalize behind : ' ' :: ("ON".toList ++ ' ' :: (j.condition ++ r)) = y
  have text : j.text ++ r =
      j.kind.name.toList ++ ' ' :: ("JOIN".toList ++ ' ' :: (j.table ++ y)) := by
    simp only [JoinClause.text, ← behind, List.append_assoc, List.cons_append]
  have length : j.text.length = j.kind.name.toList.length + (j.table.length +
      (j.condition.length + 10)) := by
    simp only [JoinClause.text, List.length_append, List.length_cons]
    show _ + (4 + (_ + (2 + _ + 1) + 1) + 1) = _
    omega
  have word : j.kind.name.toList.head?.any isWord = true := by cases j.kind <;> rfl
  have side := ((@first_sideWord before position (' ' :: ("JOIN".toList ++ ' ' :: (j.table ++ y)))
    j.kind).keep Piece.side).seq (first_someBlanks (by rfl))
  have join_ := @first_keyword Piece (some ' ') (position + j.kind.name.toList.length + 1)
    "JOIN".toList (' ' :: (j.table ++ y)) "JOIN" (by decide)
  have edge : y.head?.any isWord = false := by
    rw [← behind]
    rfl
  have table := reaches_body .table endedBy_onPattern h.table_lacks h.table_tidy edge (some ' ')
    (position + j.kind.name.toList.length + 1 + "JOIN".toList.length + 1)
  have condition := @reaches_onPattern (j.table.getLast?.or (some ' ')) (position +
    j.kind.name.toList.length + 1 + "JOIN".toList.length + 1 + j.table.length) r _ h.condition_lacks
    h.condition_tidy followed.edge
  have stop := condition.seq (first_ahead_of_keepsNothing (p := tableStop) (by repeat' constructor)
    (endsAt_tableStop followed _ _))
  rw [behind] at stop
  have whole := (first_wordEdge (atWordEdge_of_word word outside _)).andThen (side.option.seq
    (join_.andThen ((first_someBlanks (head?_body h.table_tidy y)).andThen (table.seq stop))))
  rw [text]
  refine ⟨_, _, whole, ?_, ?_⟩
  · show position + _ + 1 + 4 + 1 + _ + 1 + 2 + 1 + _ = _
    rw [length]
    omega
  · intro start stop
    have shown : j.kind.name.toList.map keywordCapital = j.kind.name.toList := by
      cases j.kind <;> decide
    have table : trim j.table = j.table := trim_eq h.table_tidy.first h.table_tidy.last
    have condition : trim j.condition = j.condition :=
      trim_eq h.condition_tidy.first h.condition_tidy.last
    simp [joinLines, JoinClause.lines, Match.part, Match.part?, Assoc.get?, Span.chars, shown, table,
      condition]

/-- Joins one behind the other, each behind a space. -/
def joinsText (joins : List JoinClause) : List Char := joins.flatMap fun j => ' ' :: j.text

@[simp] theorem joinsText_cons (j : JoinClause) (joins : List JoinClause) :
    joinsText (j :: joins) = ' ' :: (j.text ++ joinsText joins) := rfl

/-- Behind FROM and behind each join come joins or what ends them. -/
theorem followed_joinsText {keys : List String} (joins : List JoinClause) (followed : Followed keys r) :
    Followed (joinKeys ++ keys) (joinsText joins ++ r) := by
  cases joins with
  | nil => exact followed.mono fun _ => List.mem_append_right _
  | cons j joins =>
    have listed : j.kind.name ++ " JOIN" ∈ joinKeys := by cases j.kind <;> decide
    refine Or.inr ⟨_, List.mem_append_left _ listed, j.table ++ ' ' :: ("ON".toList ++
      ' ' :: j.condition) ++ (joinsText joins ++ r), ?_⟩
    have keys : (j.kind.name ++ " JOIN").toList = j.kind.name.toList ++ ' ' :: "JOIN".toList := by
      rw [String.toList_append]
      rfl
    simp only [joinsText_cons, JoinClause.text, keys, List.append_assoc, List.cons_append]

/-- All joins are found, each with the lines that it is laid out in. -/
theorem flatMap_joinLines_matchesFrom {joins : List JoinClause} (settled : ∀ j ∈ joins, j.Settled)
    (followed : Followed ["WHERE", "GROUP BY", "ORDER BY", "LIMIT"] r) (lacks : Lacks joinWords r) :
    (join.matchesFrom before position (joinsText joins ++ r)).flatMap joinLines =
      joins.flatMap JoinClause.lines := by
  induction joins generalizing before position with
  | nil =>
    rw [joinsText, List.flatMap_nil, List.nil_append, opens_join.matchesFrom_eq_nil lacks]
    rfl
  | cons j joins ih =>
    obtain ⟨stop, parts, taken, length, lines⟩ := @exists_first_join (some ' ') (position + 1) _ j
      (settled j (List.mem_cons_self ..)) (followed_joinsText joins followed) (by rfl)
    have nonempty : j.text ≠ [] := by simp [JoinClause.text]
    rw [joinsText_cons, List.cons_append, List.append_assoc, opens_join.matchesFrom_edge (by decide),
      matchesFrom_take nonempty taken length, List.flatMap_cons, lines, List.flatMap_cons,
      ih fun j' hj => settled j' (List.mem_cons_of_mem _ hj)]

/-! ## Paging -/

/-- The keywords of paging. -/
def pagingKeys : List String := ["LIMIT", "OFFSET", "ROWS", "FETCH", "NEXT", "ONLY"]

/-- Paging as it is written behind a space. -/
def pagingChars : Paging → List Char
  | .limit count none => "LIMIT".toList ++ ' ' :: natural count
  | .limit count (some n) => "LIMIT".toList ++ ' ' :: (natural count ++ ' ' :: ("OFFSET".toList ++
      ' ' :: natural n))
  | .offsetFetch n count => "OFFSET".toList ++ ' ' :: (natural n ++ ' ' :: ("ROWS".toList ++
      ' ' :: ("FETCH".toList ++ ' ' :: ("NEXT".toList ++ ' ' :: (natural count ++
        ' ' :: ("ROWS".toList ++ ' ' :: "ONLY".toList))))))
  | _ => []

theorem pagingChars_limit (count : Nat) :
    pagingChars (.limit count none) = "LIMIT".toList ++ ' ' :: natural count := rfl

theorem pagingChars_limit_offset (count n : Nat) : pagingChars (.limit count (some n)) =
    "LIMIT".toList ++ ' ' :: (natural count ++ ' ' :: ("OFFSET".toList ++ ' ' :: natural n)) := rfl

theorem pagingChars_offsetFetch (n count : Nat) : pagingChars (.offsetFetch n count) =
    "OFFSET".toList ++ ' ' :: (natural n ++ ' ' :: ("ROWS".toList ++ ' ' :: ("FETCH".toList ++
      ' ' :: ("NEXT".toList ++ ' ' :: (natural count ++ ' ' :: ("ROWS".toList ++
        ' ' :: "ONLY".toList)))))) := rfl

/-- LIMIT with a number of rows, and how many are skipped. -/
def limitPattern : Pattern Piece :=
  all [keyword "LIMIT", someBlanks, digits,
    option (all [someBlanks, keyword "OFFSET", someBlanks, digits])]

/-- OFFSET with the rows that are skipped, and how many are fetched. -/
def offsetPattern : Pattern Piece :=
  all [keyword "OFFSET", someBlanks, digits, someBlanks, keyword "ROWS",
    option (all [someBlanks, keyword "FETCH", someBlanks, keyword "NEXT", someBlanks, digits,
      someBlanks, keyword "ROWS", someBlanks, keyword "ONLY"])]

/-- The words that paging starts with. -/
def pagingWords : List String := ["LIMIT"] ++ ["OFFSET"]

theorem starts_limitPattern : Starts limitPattern ["LIMIT"] := by
  have starts (rest : Pattern Piece) : Starts (seq (anyKeyword ["LIMIT"]) (seq someBlanks rest))
      ["LIMIT"] := starts_anyKeyword (by decide) (needsEdge_someBlanks rest)
  exact starts _

theorem starts_offsetPattern : Starts offsetPattern ["OFFSET"] := by
  have starts (rest : Pattern Piece) : Starts (seq (anyKeyword ["OFFSET"]) (seq someBlanks rest))
      ["OFFSET"] := starts_anyKeyword (by decide) (needsEdge_someBlanks rest)
  exact starts _

theorem opens_paging : Opens paging pagingWords :=
  ((starts_or starts_limitPattern starts_offsetPattern).keep Piece.paging).opens

/-- Paging is taken as it is written. -/
theorem consumes_pagingChars (p : Paging) (paged : pagingChars p ≠ []) :
    Consumes (Pattern.or limitPattern offsetPattern) (pagingChars p) [] := by
  have number (n : Nat) : Consumes (digits (σ := Piece)) (natural n) [] := consumes_digits n (by rfl)
  have word {k : String} (spelled : Spells k k.toList) (r : List Char) :
      Consumes (keyword (σ := Piece) k) k.toList r := consumes_keyword spelled r
  -- A space in front of a number, and one in front of a number with more behind it.
  have gap (n : Nat) : Consumes (someBlanks (σ := Piece)) [' '] (natural n ++ []) :=
    consumes_space (head?_natural n [])
  have gapMore (n : Nat) (v : List Char) :
      Consumes (someBlanks (σ := Piece)) [' '] ((natural n ++ v) ++ []) := by
    rw [List.append_assoc]
    exact consumes_space (head?_natural n _)
  unfold pagingChars at paged ⊢
  split at paged
  · rename_i count
    have none : Consumes (option (all [someBlanks, keyword "OFFSET", someBlanks, digits])) [] [] :=
      consumes_option_nil (σ := Piece) fun _ _ => rfl
    have whole : Consumes limitPattern ("LIMIT".toList ++ ([' '] ++ (natural count ++ []))) [] :=
      (word (by decide) _).seq ((gapMore count []).seq ((number count).seq none))
    rw [List.append_nil (natural count)] at whole
    exact whole.or_left _
  · rename_i count n
    have behind : Consumes (option (all [someBlanks, keyword "OFFSET", someBlanks, digits]))
        ([' '] ++ ("OFFSET".toList ++ ([' '] ++ natural n))) [] :=
      ((consumes_space (by rfl)).seq ((word (by decide) _).seq ((gap n).seq (number n)))).option
    have whole : Consumes limitPattern ("LIMIT".toList ++ ([' '] ++ (natural count ++
        ([' '] ++ ("OFFSET".toList ++ ([' '] ++ natural n)))))) [] :=
      (word (by decide) _).seq ((gapMore count _).seq ((consumes_digits count (by rfl)).seq behind))
    exact whole.or_left _
  · rename_i n count
    have none (v : List Char) (before : Option Char) (position : Nat) : limitPattern.outcomes
        ⟨before, position, "OFFSET".toList ++ ([' '] ++ v) ++ []⟩ = [] := by
      rw [List.append_assoc]
      exact starts_limitPattern.outcomes_eq_nil (by decide) (by rfl)
    have fetched : Consumes (option (all [someBlanks, keyword "FETCH", someBlanks, keyword "NEXT",
        someBlanks, digits, someBlanks, keyword "ROWS", someBlanks, keyword "ONLY"]))
        ([' '] ++ ("FETCH".toList ++ ([' '] ++ ("NEXT".toList ++ ([' '] ++ (natural count ++
          ([' '] ++ ("ROWS".toList ++ ([' '] ++ "ONLY".toList))))))))) [] :=
      ((consumes_space (by rfl)).seq ((word (by decide) _).seq ((consumes_space (by rfl)).seq
        ((word (by decide) _).seq ((gapMore count _).seq ((consumes_digits count (by rfl)).seq
          ((consumes_space (by rfl)).seq ((word (by decide) _).seq ((consumes_space (by rfl)).seq
            (word (by decide) _)))))))))).option
    have whole : Consumes offsetPattern ("OFFSET".toList ++ ([' '] ++ (natural n ++ ([' '] ++
        ("ROWS".toList ++ ([' '] ++ ("FETCH".toList ++ ([' '] ++ ("NEXT".toList ++ ([' '] ++
          (natural count ++ ([' '] ++ ("ROWS".toList ++ ([' '] ++ "ONLY".toList)))))))))))))) [] :=
      (word (by decide) _).seq ((gapMore n _).seq ((consumes_digits n (by rfl)).seq
        ((consumes_space (by rfl)).seq ((word (by decide) _).seq fetched))))
    exact whole.or_right (none _)
  · exact absurd rfl paged

/-- Paging starts with a word. -/
theorem head?_pagingChars {p : Paging} (paged : pagingChars p ≠ []) :
    (pagingChars p).head?.any isWord = true := by
  unfold pagingChars at paged ⊢
  split at paged
  · rfl
  · rfl
  · rfl
  · exact absurd rfl paged

/-- Paging is found behind a text that does not start any. -/
theorem exists_search?_paging {p : Paging} (paged : pagingChars p ≠ []) {front : List Char}
    (lacks : Lacks pagingWords front) :
    ∃ m, paging.search? (front ++ ' ' :: pagingChars p) = some m ∧ m.part .paging = pagingChars p := by
  obtain ⟨_, taken⟩ := consumes_pagingChars p paged (some ' ') (front.length + 1)
  have edge : (⟨some ' ', front.length + 1, pagingChars p ++ []⟩ : Place).atWordEdge = true :=
    atWordEdge_of_word (head?_pagingChars paged) (by rfl) []
  have found := opens_paging.search?_append lacks paged
    ((first_wordEdge edge).andThen (taken.keep Piece.paging)) rfl
  rw [List.append_nil] at found
  refine ⟨_, found, ?_⟩
  simp [Match.part, Match.part?, Assoc.get?, Span.chars]

/-- Paging is in capitals. -/
theorem map_keywordCapital_pagingChars (p : Paging) :
    (pagingChars p).map keywordCapital = pagingChars p := by
  have number (n : Nat) : (natural n).map keywordCapital = natural n :=
    (List.map_congr_left (forall_mem_natural n (by decide))).trans (List.map_id _)
  have word : ∀ k ∈ ["LIMIT", "OFFSET", "ROWS", "FETCH", "NEXT", "ONLY"],
      k.toList.map keywordCapital = k.toList := by decide
  have space : keywordCapital ' ' = ' ' := by decide
  unfold pagingChars
  split <;> simp only [List.map_append, List.map_cons, List.map_nil, number, space, word,
    List.mem_cons, true_or, or_true]

end Clause

end QueryWorkbench.Sql
