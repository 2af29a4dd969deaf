/-
QueryWorkbench.Proofs.Sql.ClauseMatch — clauses are matched as written.

A clause is a keyword with a body behind it. The clause patterns take as few characters of a body
as possible, so it has to be shown that nothing ends a clause inside its body (`EndedBy`) and that
what comes behind it does (`Followed`). Then a clause is found with the body that is written
(`exists_search?_clause`), wherever nothing in front of it starts one; SELECT, joins and paging have
patterns of their own shape and are treated one by one.
-/
import QueryWorkbench.Proofs.Pattern.Finding
import QueryWorkbench.Proofs.Sql.Normal

namespace QueryWorkbench.Sql

open Analysis Pattern Text

variable {ks : List String} {before : Option Char} {position : Nat} {k body r : List Char}

/-! ## What ends a clause -/

/-- A pattern that matches in front of a word or of blanks only where one of some keywords comes
next. -/
def EndedBy (stop : Pattern Piece) (ks : List String) : Prop :=
  ∀ ⦃body a b r : List Char⦄, Lacks ks body → body = a ++ b →
    (∃ c, b.getLast? = some c ∧ isBlank c = false) → r.head?.any isWord = false →
    ∀ before position, stop.outcomes ⟨before, position, b ++ r⟩ = []

theorem endedBy_finish : EndedBy finish ks := by
  intro body a b r _ _ solid _ before position
  obtain ⟨c, last, -⟩ := solid
  cases b with
  | nil => cases last
  | cons d b => rfl

/-- Where blanks end a clause, one of the keywords is behind them. -/
theorem endedBy_someBlanks {p : Pattern Piece} (starts : Starts p ks) :
    EndedBy (seq someBlanks p) ks :=
  fun _ _ _ _ lacks split solid edge _ _ => starts.outcomes_someBlanks_eq_nil lacks split solid edge

theorem endedBy_anyOf {p : Pattern Piece} {ps : List (Pattern Piece)}
    (each : ∀ q ∈ p :: ps, EndedBy q ks) : EndedBy (anyOf p ps) ks := by
  intro body a b r lacks split solid edge before position
  rw [List.eq_nil_iff_forall_not_mem]
  intro o h
  obtain ⟨q, hq, h⟩ := mem_outcomes_anyOf.mp h
  rw [each q hq lacks split solid edge before position] at h
  cases h

theorem EndedBy.ahead {p : Pattern Piece} (h : EndedBy p ks) : EndedBy (.ahead p) ks :=
  fun _ _ _ _ lacks split solid edge before position =>
    outcomes_ahead_eq_nil.mpr (h lacks split solid edge before position)

theorem EndedBy.mono {js : List String} {p : Pattern Piece} (h : EndedBy p js)
    (sub : ∀ j ∈ js, j ∈ ks) : EndedBy p ks :=
  fun _ _ _ _ lacks split solid edge before position =>
    h (lacks.mono sub) split solid edge before position

/-- An optional part that the keywords start, and what they end. -/
theorem endedBy_seq_option {p q : Pattern Piece} (hp : EndedBy p ks) (hq : EndedBy q ks) :
    EndedBy (seq (option p) q) ks := by
  intro body a b r lacks split solid edge before position
  refine outcomes_seq_eq_nil.mpr fun o ho => ?_
  rw [outcomes, hp lacks split solid edge before position, List.nil_append] at ho
  obtain rfl := List.mem_singleton.mp ho
  exact hq lacks split solid edge before position

/-- A keyword behind blanks. -/
theorem endedBy_keyword {k : String} (words : AreWords [k]) (hk : k ∈ ks) :
    EndedBy (Clause.afterBlanks (keyword k)) ks :=
  endedBy_someBlanks ((starts_whole_keyword words).mono fun _ hj => List.mem_singleton.mp hj ▸ hk)

/-- Two keywords behind blanks. -/
theorem endedBy_by {k : String} (words : AreWords [k]) (hk : k ∈ ks) :
    EndedBy (Clause.afterBlanks (Clause.twoWords k "BY")) ks :=
  endedBy_someBlanks ((starts_whole_by words).mono fun _ hj => List.mem_singleton.mp hj ▸ hk)

/-! ## What a clause is ended by -/

/-- A pattern that takes a text in front of a space and ends with a word. -/
def Takes (p : Pattern Piece) (k : List Char) : Prop :=
  ∀ before position rest, ∃ c, isWord c = true ∧
    First p ⟨before, position, k ++ ' ' :: rest⟩ ⟨some c, position + k.length, ' ' :: rest⟩ []

theorem takes_keyword {k : String} (words : AreWords [k]) (spelled : Spells k k.toList) :
    Takes (keyword k) k.toList := by
  intro before position rest
  have listed := List.mem_singleton.mpr (rfl : k = k)
  have nonempty := ne_nil_of_spells words listed spelled
  refine ⟨k.toList.getLast nonempty,
    isWord_of_spells words listed spelled _ (List.getLast_mem nonempty), ?_⟩
  have taken : First (keyword (σ := Piece) k) ⟨before, position, k.toList ++ ' ' :: rest⟩ _ [] :=
    first_keyword spelled
  rwa [List.getLast?_eq_some_getLast nonempty] at taken

theorem takes_twoWords {j k : String} (words : AreWords [j, k]) (first : Spells j j.toList)
    (second : Spells k k.toList) :
    Takes (Clause.twoWords j k) (j.toList ++ ' ' :: k.toList) := by
  intro before position rest
  have words_j : AreWords [j] := fun i hi => words i (List.mem_singleton.mp hi ▸ List.mem_cons_self ..)
  have words_k : AreWords [k] := fun i hi => words i (List.mem_cons_of_mem _ hi)
  have listed : k ∈ [j, k] := List.mem_cons_of_mem _ (List.mem_singleton.mpr rfl)
  obtain ⟨_, _, one⟩ := takes_keyword words_j first before position (k.toList ++ ' ' :: rest)
  obtain ⟨c, word, two⟩ := takes_keyword words_k second (some ' ') (position + j.toList.length + 1) rest
  have unblank := head?_isBlank_of_isWord (ne_nil_of_spells words listed second)
    (isWord_of_spells words listed second) (' ' :: rest)
  have both := one.andThen ((first_someBlanks unblank).andThen two)
  refine ⟨c, word, ?_⟩
  have length : position + (j.toList ++ ' ' :: k.toList).length =
      position + j.toList.length + 1 + k.toList.length := by
    rw [List.length_append, List.length_cons]
    omega
  rw [List.append_assoc, List.cons_append, length]
  exact both

/-- A clause ends where the next one starts. -/
theorem Takes.afterBlanks {p : Pattern Piece} (takes : Takes p k)
    (unblank : k.head?.any isBlank = false) (nonempty : k ≠ []) (rest : List Char) :
    (Clause.afterBlanks p).outcomes ⟨before, position, ' ' :: (k ++ ' ' :: rest)⟩ ≠ [] := by
  obtain ⟨c, word, taken⟩ := takes (some ' ') (position + 1) rest
  have edge : (k ++ ' ' :: rest).head?.any isBlank = false := by
    obtain ⟨d, k, rfl⟩ := List.exists_cons_of_ne_nil nonempty
    exact unblank
  have atEdge : (⟨some c, position + 1 + k.length, ' ' :: rest⟩ : Place).atWordEdge = true := by
    simp only [Place.atWordEdge, Option.any_some, word, List.head?_cons]
    decide
  exact ((first_someBlanks edge).andThen (taken.andThen (first_wordEdge atEdge))).ne_nil

/-- The end of a text, or a space and one of some keywords. -/
def Followed (keys : List String) (r : List Char) : Prop :=
  r = [] ∨ ∃ k ∈ keys, ∃ rest, r = ' ' :: (k.toList ++ ' ' :: rest)

theorem Followed.edge {keys : List String} (h : Followed keys r) : r.head?.any isWord = false := by
  rcases h with rfl | ⟨k, -, rest, rfl⟩
  · rfl
  · rfl

theorem Followed.mono {js keys : List String} (h : Followed js r) (sub : ∀ j ∈ js, j ∈ keys) :
    Followed keys r := by
  rcases h with rfl | ⟨k, hk, rest, rfl⟩
  · exact Or.inl rfl
  · exact Or.inr ⟨k, sub k hk, rest, rfl⟩

/-- A pattern that matches at the end of a text and in front of some keywords. -/
def EndsAt (stop : Pattern Piece) (keys : List String) : Prop :=
  ∀ ⦃r : List Char⦄, Followed keys r → ∀ before position,
    stop.outcomes ⟨before, position, r⟩ ≠ []

/-- Of several patterns one matches at the end and each keyword has one that takes it. -/
theorem endsAt_anyOf {p : Pattern Piece} {ps : List (Pattern Piece)} {keys : List String}
    (last : finish ∈ p :: ps)
    (each : ∀ k ∈ keys, ∃ q ∈ p :: ps, ∀ before position rest,
      q.outcomes ⟨before, position, ' ' :: (k.toList ++ ' ' :: rest)⟩ ≠ []) :
    EndsAt (anyOf p ps) keys := by
  rintro r (rfl | ⟨k, hk, rest, rfl⟩) before position
  · exact outcomes_anyOf_ne_nil last (by simp [outcomes])
  · obtain ⟨q, hq, some⟩ := each k hk
    exact outcomes_anyOf_ne_nil hq (some before position rest)

/-! ### The ends of each clause -/

namespace Clause

/-- The start of a join behind blanks. -/
def joinStart : Pattern Piece :=
  all [someBlanks, option (all [sideWord, someBlanks]), whole (keyword "JOIN")]

/-- What ends a table or a join condition. -/
def tableStop : Pattern Piece :=
  anyOf joinStart [afterBlanks (keyword "WHERE"), afterBlanks (twoWords "GROUP" "BY"),
    afterBlanks (twoWords "ORDER" "BY"), afterBlanks (keyword "LIMIT"), finish]

/-- What ends the conditions. -/
def filterStop : Pattern Piece :=
  anyOf (afterBlanks (twoWords "GROUP" "BY"))
    [afterBlanks (twoWords "ORDER" "BY"), afterBlanks (keyword "LIMIT"), finish]

/-- What ends the grouping. -/
def groupStop : Pattern Piece :=
  anyOf (afterBlanks (twoWords "ORDER" "BY")) [afterBlanks (keyword "LIMIT"), finish]

/-- What ends the sorting. -/
def orderStop : Pattern Piece :=
  anyOf (afterBlanks (keyword "LIMIT")) [afterBlanks (keyword "OFFSET"), finish]

/-- The sides of joins. -/
def sideWords : List String := ["INNER", "LEFT", "RIGHT", "FULL"]

/-- The words that joins start with. -/
def joinWords : List String := sideWords ++ ["JOIN"]

/-- The words that end a table. -/
def tableEnders : List String := joinWords ++ ["WHERE", "GROUP", "ORDER", "LIMIT"]

theorem starts_side : Starts (seq sideWord someBlanks) sideWords :=
  starts_anyKeyword (by decide) needsEdge_blank

theorem starts_joinStart :
    Starts (seq (option (seq sideWord someBlanks)) (whole (keyword "JOIN"))) joinWords :=
  starts_seq_option starts_side (starts_whole_keyword (by decide))

theorem endedBy_tableStop : EndedBy tableStop tableEnders := by
  refine endedBy_anyOf fun q hq => ?_
  simp only [List.mem_cons, List.not_mem_nil, or_false] at hq
  rcases hq with rfl | rfl | rfl | rfl | rfl | rfl
  · exact endedBy_someBlanks (starts_joinStart.mono fun _ => List.mem_append_left _)
  · exact endedBy_keyword (by decide) (by decide)
  · exact endedBy_by (by decide) (by decide)
  · exact endedBy_by (by decide) (by decide)
  · exact endedBy_keyword (by decide) (by decide)
  · exact endedBy_finish

theorem endedBy_filterStop : EndedBy filterStop ["GROUP", "ORDER", "LIMIT"] := by
  refine endedBy_anyOf fun q hq => ?_
  simp only [List.mem_cons, List.not_mem_nil, or_false] at hq
  rcases hq with rfl | rfl | rfl | rfl
  · exact endedBy_by (by decide) (by decide)
  · exact endedBy_by (by decide) (by decide)
  · exact endedBy_keyword (by decide) (by decide)
  · exact endedBy_finish

theorem endedBy_groupStop : EndedBy groupStop ["ORDER", "LIMIT"] := by
  refine endedBy_anyOf fun q hq => ?_
  simp only [List.mem_cons, List.not_mem_nil, or_false] at hq
  rcases hq with rfl | rfl | rfl
  · exact endedBy_by (by decide) (by decide)
  · exact endedBy_keyword (by decide) (by decide)
  · exact endedBy_finish

theorem endedBy_orderStop : EndedBy orderStop ["LIMIT", "OFFSET"] := by
  refine endedBy_anyOf fun q hq => ?_
  simp only [List.mem_cons, List.not_mem_nil, or_false] at hq
  rcases hq with rfl | rfl | rfl
  · exact endedBy_keyword (by decide) (by decide)
  · exact endedBy_keyword (by decide) (by decide)
  · exact endedBy_finish

variable {rest : List Char}

theorem first_sideWord (kind : JoinKind) :
    First sideWord ⟨before, position, kind.name.toList ++ rest⟩
      ⟨kind.name.toList.getLast?.or before, position + kind.name.toList.length, rest⟩ [] := by
  have listed : kind.name ∈ sideWords := by cases kind <;> decide
  have spelled : Spells kind.name kind.name.toList ∧ kind.name.toList ≠ [] := by
    cases kind <;> decide
  exact first_anyKeyword listed (by decide) (by decide) spelled.2 spelled.1

/-- The keywords of joins. -/
def joinKeys : List String := JoinKind.all.map fun kind => kind.name ++ " JOIN"

theorem outcomes_joinStart_ne_nil {k : String} (hk : k ∈ joinKeys) (rest : List Char) :
    joinStart.outcomes ⟨before, position, ' ' :: (k.toList ++ ' ' :: rest)⟩ ≠ [] := by
  obtain ⟨kind, -, rfl⟩ := List.mem_map.mp hk
  have text : (kind.name ++ " JOIN").toList ++ ' ' :: rest =
      kind.name.toList ++ ' ' :: ("JOIN".toList ++ ' ' :: rest) := by
    rw [String.toList_append, List.append_assoc]
    rfl
  have unblank : (kind.name.toList ++ ' ' :: ("JOIN".toList ++ ' ' :: rest)).head?.any isBlank =
      false := by cases kind <;> rfl
  obtain ⟨c, word, taken⟩ := takes_keyword (k := "JOIN") (by decide) (by decide) (some ' ')
    (position + 1 + kind.name.toList.length + 1) rest
  have atEdge : (⟨some c, position + 1 + kind.name.toList.length + 1 + "JOIN".toList.length,
      ' ' :: rest⟩ : Place).atWordEdge = true := by
    simp only [Place.atWordEdge, Option.any_some, word, List.head?_cons]
    decide
  rw [text]
  have joins := taken.andThen (first_wordEdge atEdge)
  exact ((first_someBlanks unblank).andThen
    (((first_sideWord kind).andThen (first_someBlanks (by rfl))).option.andThen joins)).ne_nil

theorem outcomes_keyword_ne_nil {k : String} (words : AreWords [k]) (spelled : Spells k k.toList)
    (rest : List Char) :
    (afterBlanks (keyword k)).outcomes ⟨before, position, ' ' :: (k.toList ++ ' ' :: rest)⟩ ≠ [] := by
  have listed := List.mem_singleton.mpr (rfl : k = k)
  have nonempty := ne_nil_of_spells words listed spelled
  have unblank := head?_isBlank_of_isWord nonempty (isWord_of_spells words listed spelled) []
  rw [List.append_nil] at unblank
  exact (takes_keyword words spelled).afterBlanks unblank nonempty rest

theorem outcomes_group_ne_nil (rest : List Char) : (afterBlanks (twoWords "GROUP" "BY")).outcomes
    ⟨before, position, ' ' :: ("GROUP BY".toList ++ ' ' :: rest)⟩ ≠ [] :=
  (takes_twoWords (by decide) (by decide) (by decide)).afterBlanks (by decide) (by decide) rest

theorem outcomes_order_ne_nil (rest : List Char) : (afterBlanks (twoWords "ORDER" "BY")).outcomes
    ⟨before, position, ' ' :: ("ORDER BY".toList ++ ' ' :: rest)⟩ ≠ [] :=
  (takes_twoWords (by decide) (by decide) (by decide)).afterBlanks (by decide) (by decide) rest

theorem endsAt_tableStop :
    EndsAt tableStop (joinKeys ++ ["WHERE", "GROUP BY", "ORDER BY", "LIMIT"]) := by
  refine endsAt_anyOf (by simp) fun k hk => ?_
  rcases List.mem_append.mp hk with hk | hk
  · exact ⟨joinStart, by simp, fun _ _ => outcomes_joinStart_ne_nil hk⟩
  · simp only [List.mem_cons, List.not_mem_nil, or_false] at hk
    rcases hk with rfl | rfl | rfl | rfl
    · exact ⟨_, by simp, fun _ _ => outcomes_keyword_ne_nil (by decide) (by decide)⟩
    · exact ⟨_, by simp, fun _ _ => outcomes_group_ne_nil⟩
    · exact ⟨_, by simp, fun _ _ => outcomes_order_ne_nil⟩
    · exact ⟨_, by simp, fun _ _ => outcomes_keyword_ne_nil (by decide) (by decide)⟩

theorem endsAt_filterStop : EndsAt filterStop ["GROUP BY", "ORDER BY", "LIMIT"] := by
  refine endsAt_anyOf (by simp) fun k hk => ?_
  simp only [List.mem_cons, List.not_mem_nil, or_false] at hk
  rcases hk with rfl | rfl | rfl
  · exact ⟨_, by simp, fun _ _ => outcomes_group_ne_nil⟩
  · exact ⟨_, by simp, fun _ _ => outcomes_order_ne_nil⟩
  · exact ⟨_, by simp, fun _ _ => outcomes_keyword_ne_nil (by decide) (by decide)⟩

theorem endsAt_groupStop : EndsAt groupStop ["ORDER BY", "LIMIT"] := by
  refine endsAt_anyOf (by simp) fun k hk => ?_
  simp only [List.mem_cons, List.not_mem_nil, or_false] at hk
  rcases hk with rfl | rfl
  · exact ⟨_, by simp, fun _ _ => outcomes_order_ne_nil⟩
  · exact ⟨_, by simp, fun _ _ => outcomes_keyword_ne_nil (by decide) (by decide)⟩

theorem endsAt_orderStop : EndsAt orderStop ["LIMIT", "OFFSET"] := by
  refine endsAt_anyOf (by simp) fun k hk => ?_
  simp only [List.mem_cons, List.not_mem_nil, or_false] at hk
  rcases hk with rfl | rfl
  · exact ⟨_, by simp, fun _ _ => outcomes_keyword_ne_nil (by decide) (by decide)⟩
  · exact ⟨_, by simp, fun _ _ => outcomes_keyword_ne_nil (by decide) (by decide)⟩

end Clause

/-! ## Bodies -/

/-- A body is taken to its end. -/
theorem reaches_body {q : Pattern Piece} (slot : Piece) (ended : EndedBy q ks) (lacks : Lacks ks body)
    (tidy : Tidy body) (edge : r.head?.any isWord = false) (before : Option Char)
    (position : Nat) : Reaches (keep slot someLazy) q ⟨before, position, body ++ r⟩
      ⟨body.getLast?.or before, position + body.length, r⟩
      [(slot, ⟨⟨before, position, body ++ r⟩, body.length⟩)] := by
  have inside : ∀ a b, body = a ++ b → a ≠ [] → b ≠ [] → ∀ before position,
      q.outcomes ⟨before, position, b ++ r⟩ = [] := by
    intro a b split _ b_ne before position
    have solid : ∃ c, b.getLast? = some c ∧ isBlank c = false := by
      have last := tidy.last
      rw [split, List.getLast?_append, List.getLast?_eq_some_getLast b_ne] at last
      exact ⟨_, List.getLast?_eq_some_getLast b_ne, last⟩
    exact ended lacks split solid edge before position
  have kept := (@reaches_someLazy _ _ before position _ _ tidy.nonempty inside).keep slot
  have length : position + body.length - position = body.length := Nat.add_sub_cancel_left ..
  rwa [length] at kept

/-- The body of a clause starts with no blank. -/
theorem head?_body (tidy : Tidy body) (r : List Char) : (body ++ r).head?.any isBlank = false := by
  obtain ⟨c, body, rfl⟩ := List.exists_cons_of_ne_nil tidy.nonempty
  exact tidy.first

/-- A word starts at a keyword that no word is in front of. -/
theorem atWordEdge_of_word (word : k.head?.any isWord = true) (outside : before.any isWord = false)
    (r : List Char) : (⟨before, position, k ++ r⟩ : Place).atWordEdge = true := by
  obtain ⟨c, k, rfl⟩ : ∃ c t, k = c :: t := by
    cases k with
    | nil => cases word
    | cons c k => exact ⟨c, k, rfl⟩
  have inside : isWord c = true := word
  simp [Place.atWordEdge, outside, inside]

/-! ## Clauses with one body -/

/-- A clause that keywords start and that has one body behind them: what takes the keywords, the
slot of the body and what ends it; then the keywords, the first of them, the words that end the
body and the keywords that may come behind it. -/
structure PlainClause where
  head : Pattern Piece
  slot : Piece
  stop : Pattern Piece
  keys : String
  opening : String
  enders : List String
  followers : List String

namespace PlainClause

/-- The pattern of a clause. -/
def pattern (c : PlainClause) : Pattern Piece :=
  all [wordEdge, c.head, someBlanks, keep c.slot someLazy, ahead c.stop]

/-- A clause as it is written behind a space. -/
def text (c : PlainClause) (body : List Char) : List Char := c.keys.toList ++ ' ' :: body

/-- What a clause says of its patterns. -/
structure Sound (c : PlainClause) : Prop where
  opens : Opens c.pattern [c.opening]
  takes : Takes c.head c.keys.toList
  word : c.keys.toList.head?.any isWord = true
  ended : EndedBy c.stop c.enders
  nothing : c.stop.KeepsNothing
  ends : EndsAt c.stop c.followers

section

variable {c : PlainClause} (h : c.Sound)
include h

/-- A clause is taken as it is written. -/
theorem Sound.first (lacks : Lacks c.enders body) (tidy : Tidy body) (followed : Followed c.followers r)
    (outside : before.any isWord = false) :
    First c.pattern ⟨before, position, c.text body ++ r⟩
      ⟨body.getLast?.or (some ' '), position + (c.text body).length, r⟩
      [(c.slot, ⟨⟨some ' ', position + c.keys.toList.length + 1, body ++ r⟩, body.length⟩)] := by
  have length : position + (c.text body).length =
      position + c.keys.toList.length + 1 + body.length := by
    rw [text, List.length_append, List.length_cons]
    omega
  obtain ⟨e, -, taken⟩ := h.takes before position (body ++ r)
  have kept := (reaches_body c.slot h.ended.ahead lacks tidy followed.edge (some ' ')
    (position + c.keys.toList.length + 1)).seq
      (first_ahead_of_keepsNothing h.nothing (h.ends followed _ _))
  rw [length, text, List.append_assoc, List.cons_append]
  exact (first_wordEdge (atWordEdge_of_word h.word outside _)).andThen
    (taken.andThen ((first_someBlanks (head?_body tidy r)).andThen kept))

/-- A clause is found with its body behind a text that does not start one. -/
theorem Sound.exists_search? {front : List Char} (front_lacks : Lacks [c.opening] front)
    (lacks : Lacks c.enders body) (tidy : Tidy body) (followed : Followed c.followers r) :
    ∃ m, c.pattern.search? (front ++ ' ' :: (c.text body ++ r)) = some m ∧ m.part c.slot = body := by
  have nonempty : c.text body ≠ [] := by simp [text]
  exact ⟨_, h.opens.search?_append front_lacks nonempty (h.first lacks tidy followed (by rfl)) rfl,
    by simp [Match.part, Match.part?, Assoc.get?, Span.chars]⟩

/-- A clause is not found where nothing starts one. -/
theorem Sound.search?_eq_none {s : List Char} (lacks : Lacks [c.opening] s) :
    c.pattern.search? s = none := by
  rw [h.opens.search?_eq, h.opens.matchesFrom_eq_nil lacks]
  rfl

end

end PlainClause

namespace Clause

/-- A keyword opens a clause. -/
theorem opens_keyword {k : String} (words : AreWords [k]) (rest : Pattern Piece) :
    Opens (all [wordEdge, keyword k, someBlanks, rest]) [k] := by
  have starts : Starts (seq (anyKeyword [k]) (seq someBlanks rest)) [k] :=
    starts_anyKeyword words (needsEdge_someBlanks rest)
  exact starts.opens

/-- Two keywords open a clause. -/
theorem opens_by {k : String} (words : AreWords [k]) (rest : Pattern Piece) :
    Opens (all [wordEdge, twoWords k "BY", someBlanks, rest]) [k] := by
  have starts : Starts (σ := Piece) (twoWords k "BY") [k] :=
    starts_anyKeyword words (needsEdge_someBlanks _)
  exact (starts.seq _).opens

/-- FROM and the first table. -/
def sourceClause : PlainClause :=
  ⟨keyword "FROM", .table, tableStop, "FROM", "FROM", tableEnders,
    joinKeys ++ ["WHERE", "GROUP BY", "ORDER BY", "LIMIT"]⟩

/-- WHERE and the conditions. -/
def filterClause : PlainClause :=
  ⟨keyword "WHERE", .condition, filterStop, "WHERE", "WHERE", ["GROUP", "ORDER", "LIMIT"],
    ["GROUP BY", "ORDER BY", "LIMIT"]⟩

/-- GROUP BY and its items. -/
def groupClause : PlainClause :=
  ⟨twoWords "GROUP" "BY", .items, groupStop, "GROUP BY", "GROUP", ["ORDER", "LIMIT"],
    ["ORDER BY", "LIMIT"]⟩

/-- ORDER BY and its items. -/
def orderClause : PlainClause :=
  ⟨twoWords "ORDER" "BY", .items, orderStop, "ORDER BY", "ORDER", ["LIMIT", "OFFSET"],
    ["LIMIT", "OFFSET"]⟩

theorem sound_source : sourceClause.Sound :=
  ⟨opens_keyword (by decide) _, takes_keyword (by decide) (by decide), by decide, endedBy_tableStop,
    by repeat' constructor, endsAt_tableStop⟩

theorem sound_filter : filterClause.Sound :=
  ⟨opens_keyword (by decide) _, takes_keyword (by decide) (by decide), by decide,
    endedBy_filterStop, by repeat' constructor, endsAt_filterStop⟩

theorem sound_group : groupClause.Sound :=
  ⟨opens_by (by decide) _, takes_twoWords (by decide) (by decide) (by decide), by decide,
    endedBy_groupStop, by repeat' constructor, endsAt_groupStop⟩

theorem sound_order : orderClause.Sound :=
  ⟨opens_by (by decide) _, takes_twoWords (by decide) (by decide) (by decide), by decide,
    endedBy_orderStop, by repeat' constructor, endsAt_orderStop⟩

end Clause

end QueryWorkbench.Sql
