/-
QueryWorkbench.Proofs.Analysis.Openings — where the patterns of the analysis can match.

The patterns for tables and join conditions are opened by their keywords, so a part of a text
that lacks these keywords is passed over. A match of a pattern for nested queries leads over a
parenthesis to SELECT (`LeadsToQuery`), so a text with no SELECT but the one that it starts with has
no nested query.
-/
import QueryWorkbench.Analysis.Scan
import QueryWorkbench.Proofs.Pattern.Finding

namespace QueryWorkbench.Analysis

open Pattern Text

/-! ## Tables and conditions -/

/-- The words that a join starts with. -/
def joinWords : List String := ["INNER", "LEFT", "RIGHT", "FULL", "CROSS", "JOIN"]

/-- The words that a table or a condition starts with. -/
def openers : List String := "SELECT" :: "FROM" :: "ON" :: joinWords

theorem opens_fromTable : Opens fromTable ["FROM"] := by
  show Opens (seq wordEdge (seq (anyKeyword ["FROM"]) (seq someBlanks _))) ["FROM"]
  exact (starts_anyKeyword (by decide) (needsEdge_someBlanks _)).opens

theorem opens_onCondition : Opens onCondition ["ON"] := by
  show Opens (seq wordEdge (seq (anyKeyword ["ON"]) (seq someBlanks _))) ["ON"]
  exact (starts_anyKeyword (by decide) (needsEdge_someBlanks _)).opens

/-- What stands before JOIN, or JOIN itself. -/
theorem starts_joinSide {q : Pattern Part} (hq : Starts q ["JOIN"]) :
    Starts (seq joinSide q) joinWords := by
  have side : Starts (σ := Part) (seq (anyKeyword ["INNER", "LEFT", "RIGHT", "FULL", "CROSS"])
      (seq someBlanks (option (all [keyword "OUTER", someBlanks]))))
      ["INNER", "LEFT", "RIGHT", "FULL", "CROSS"] :=
    starts_anyKeyword (by decide) (needsEdge_someBlanks _)
  exact starts_seq_option side hq

theorem opens_joinTable : Opens joinTable joinWords := by
  have joined : Starts (σ := Part) (seq (anyKeyword ["JOIN"]) (seq someBlanks
      (seq tableName tableAlias))) ["JOIN"] :=
    starts_anyKeyword (by decide) (needsEdge_someBlanks _)
  exact (starts_joinSide joined).opens

/-! ## Nested queries -/

/-- A match that goes over some characters to a parenthesis, which it keeps, and over blanks to a
query. -/
structure Leads (here : Place) (o : Place × Kept Part) (head lead rest : List Char) : Prop where
  split : here.rest = head ++ '(' :: (lead ++ rest)
  flat : '(' ∉ head
  blank : ∀ c ∈ lead, isBlank c = true
  starts : Spells "SELECT" (leading rest)
  stop : o.1.position = here.position + (head.length + 1 + lead.length)
  opening : Assoc.get? Part.opening o.2 =
    some ⟨⟨head.getLast?.or here.before, here.position + head.length, '(' :: (lead ++ rest)⟩, 1⟩

theorem mem_outcomes_selectAhead {here : Place} {o : Place × Kept Part}
    (ho : o ∈ selectAhead.outcomes here) : Spells "SELECT" (leading here.rest) ∧ o = (here, []) := by
  obtain ⟨o', found, rfl⟩ := mem_outcomes_ahead.mp ho
  have selected := List.mem_of_head? found
  obtain ⟨k, hk, spelled, -⟩ := starts_whole_keyword (by decide) here (List.ne_nil_of_mem selected)
  obtain rfl := List.mem_singleton.mp hk
  have nothing : (whole (keyword (σ := Part) "SELECT")).KeepsNothing := by repeat constructor
  exact ⟨spelled, by rw [nothing.snd_eq_nil selected]⟩

theorem exists_leads_scalarOpening {here : Place} {o : Place × Kept Part}
    (ho : o ∈ scalarOpening.outcomes here) : ∃ lead rest, Leads here o [] lead rest := by
  obtain ⟨o₁, h₁, o₂, h₂, rfl⟩ := mem_outcomes_seq.mp ho
  obtain ⟨o₃, h₃, o₄, h₄, rfl⟩ := mem_outcomes_seq.mp h₂
  obtain ⟨o', ho', rfl⟩ := mem_outcomes_keep.mp h₁
  obtain ⟨c, rest, split, paren, rfl⟩ := mem_outcomes_one ho'
  obtain rfl : c = '(' := by simpa [CharSet.has] using paren
  obtain ⟨lead, more, split', blank, rfl⟩ := mem_outcomes_greedy h₃
  obtain ⟨spelled, rfl⟩ := mem_outcomes_selectAhead h₄
  obtain ⟨before, position, rest'⟩ := here
  obtain rfl : rest' = '(' :: rest := split
  obtain rfl : rest = lead ++ more := split'
  exact ⟨lead, more, rfl, by simp, blank, spelled, by simp only [List.length_nil]; omega,
    by simp [Assoc.get?]⟩

/-- A match that leads to a query does so from further in front. -/
theorem Leads.behind {here there : Place} {o : Place × Kept Part} {a head lead rest : List Char}
    (h : Leads there o head lead rest) (advances : Advances a here there) (flat : '(' ∉ a) :
    Leads here o (a ++ head) lead rest := by
  refine ⟨?_, ?_, h.blank, h.starts, ?_, ?_⟩
  · rw [advances.rest, h.split, List.append_assoc]
  · rw [List.mem_append, not_or]
    exact ⟨flat, h.flat⟩
  · rw [h.stop, advances.position, List.length_append]
    omega
  · rw [h.opening, advances.position, advances.before,
      List.length_append, List.getLast?_append, Option.or_assoc, Nat.add_assoc]

/-- A pattern with matches that lead to queries. -/
def LeadsToQuery (p : Pattern Part) : Prop :=
  ∀ here, ∀ o ∈ p.outcomes here, ∃ head lead rest, Leads here o head lead rest

theorem leadsToQuery_scalarOpening : LeadsToQuery scalarOpening := fun _ _ ho =>
  ⟨[], exists_leads_scalarOpening ho⟩

theorem LeadsToQuery.seq {p q : Pattern Part} (h : LeadsToQuery q) (free : p.takes '(' = false)
    (nothing : p.KeepsNothing) : LeadsToQuery (seq p q) := by
  intro here o ho
  obtain ⟨o₁, h₁, o₂, h₂, rfl⟩ := mem_outcomes_seq.mp ho
  obtain ⟨a, advances, all⟩ := exists_advances h₁
  obtain ⟨head, lead, rest, leads⟩ := h _ o₂ h₂
  have flat := not_mem_of_takes free all
  rw [nothing.snd_eq_nil h₁, List.append_nil]
  exact ⟨a ++ head, lead, rest, leads.behind advances flat⟩

theorem leadsToQuery_derivedOpening : LeadsToQuery derivedOpening :=
  ((leadsToQuery_scalarOpening.seq (p := blanks) (by decide) trivial).seq
    (p := anyKeyword ["FROM", "JOIN"]) (by decide) (by repeat constructor)).seq (p := wordEdge)
      (by decide) trivial

theorem leadsToQuery_predicateOpening : LeadsToQuery predicateOpening :=
  (((leadsToQuery_scalarOpening.seq (p := blanks) (by decide) trivial).seq
    (p := anyKeyword ["IN", "EXISTS"]) (by decide) (by repeat constructor)).seq
      (p := option (all [keyword "NOT", someBlanks])) (by decide) (by repeat constructor)).seq
        (p := wordEdge) (by decide) trivial

/-- A pattern that only matches where a keyword starts as a word further on. -/
def Seeks (p : Pattern Part) (k : String) : Prop :=
  ∀ here, p.outcomes here ≠ [] → ∃ a b, here.rest = a ++ b ∧
    (∃ c, a.getLast? = some c ∧ isWord c = false) ∧ Spells k (leading b) ∧ leading b ≠ []

/-- The query that a match leads to starts with SELECT behind a parenthesis or a blank. -/
theorem LeadsToQuery.seeks {p : Pattern Part} (h : LeadsToQuery p) : Seeks p "SELECT" := by
  intro here some
  obtain ⟨o, ho⟩ := List.exists_mem_of_ne_nil _ some
  obtain ⟨head, lead, rest, leads⟩ := h here o ho
  refine ⟨head ++ '(' :: lead, rest, by rw [leads.split, List.append_assoc, List.cons_append], ?_,
    leads.starts, ne_nil_of_spells (by decide) (List.mem_singleton.mpr rfl) leads.starts⟩
  rw [List.getLast?_append, List.getLast?_cons]
  refine ⟨_, rfl, ?_⟩
  cases last : lead.getLast? with
  | none => exact (by decide : isWord '(' = false)
  | some c => exact isWord_of_isBlank (leads.blank c (List.mem_of_getLast? last))

/-- A keyword that a text has no more after its first word is not found further on. -/
theorem Seeks.findAll_eq_nil {p : Pattern Part} {k : String} (h : Seeks p k) {w t : List Char}
    (word : ∀ c ∈ w, isWord c = true) (lacks : Lacks [k] t) : p.findAll (w ++ t) = [] := by
  rw [findAll_eq]
  refine matchesFrom_eq_nil fun a b split before position => Decidable.byContradiction fun some => ?_
  obtain ⟨a', b', split', ⟨c, last, outside⟩, spelled, nonempty⟩ := h _ some
  have split' : b = a' ++ b' := split'
  have last : (a ++ a').getLast? = Option.some c := by
    rw [List.getLast?_append, last]
    rfl
  have beyond : c ∉ w := by
    intro hc
    rw [word c hc] at outside
    cases outside
  rw [split', ← List.append_assoc] at split
  rcases List.append_eq_append_iff.mp split with ⟨e, longer, split⟩ | ⟨e, shorter, -⟩
  · rw [longer, List.getLast?_append] at last
    refine lacks.not_spells_leading split ?_ nonempty k (List.mem_singleton.mpr rfl) spelled
    cases last_e : e.getLast? with
    | none =>
      rw [last_e] at last
      exact absurd (List.mem_of_getLast? last) beyond
    | some d =>
      rw [last_e] at last
      obtain rfl := Option.some.inj last
      exact outside
  · exact beyond (shorter ▸ List.mem_append_left _ (List.mem_of_getLast? last))

/-- A text with no SELECT after its first word has no nested queries. -/
theorem nestedQueries_eq_nil (limit : Int) {w t : List Char} (word : ∀ c ∈ w, isWord c = true)
    (lacks : Lacks ["SELECT"] t) : nestedQueries limit (w ++ t) = ([], []) := by
  have derived := leadsToQuery_derivedOpening.seeks.findAll_eq_nil word lacks
  have predicate := leadsToQuery_predicateOpening.seeks.findAll_eq_nil word lacks
  have scalar := leadsToQuery_scalarOpening.seeks.findAll_eq_nil word lacks
  simp [nestedQueries, bounded, derived, predicate, scalar, openings, firstAtEach, outermost]

/-! ## Parentheses -/

/-- A text that closes every parenthesis that it opens. -/
inductive Balanced : List Char → Prop
  | nil : Balanced []
  | calm {c : Char} {s : List Char} (opening : c ≠ '(') (closing : c ≠ ')') :
      Balanced s → Balanced (c :: s)
  | nest {s t : List Char} : Balanced s → Balanced t → Balanced ('(' :: (s ++ ')' :: t))

theorem Balanced.append {s t : List Char} (hs : Balanced s) (ht : Balanced t) :
    Balanced (s ++ t) := by
  induction hs with
  | nil => exact ht
  | calm opening closing _ ih => exact .calm opening closing ih
  | @nest s u hs _ _ ih =>
    rw [List.cons_append, List.append_assoc, List.cons_append]
    exact .nest hs ih

theorem balanced_of_calm {s : List Char} (calm : ∀ c ∈ s, c ≠ '(' ∧ c ≠ ')') : Balanced s := by
  induction s with
  | nil => exact .nil
  | cons c s ih =>
    have first := calm c (List.mem_cons_self ..)
    exact .calm first.1 first.2 (ih fun d hd => calm d (List.mem_cons_of_mem _ hd))

section

variable {opened : List Bool} {p : Int} {position : Nat} {rest : List Char}

/-- Before the position to be judged a character only opens or closes a parenthesis. -/
theorem callsFrom_cons {c : Char} (beyond : (position : Int) < p) :
    callsFrom opened [p] [] position (c :: rest) =
      callsFrom (if c = '(' then (!startsSubquery ⟨some c, position + 1, rest⟩) :: opened
        else if c = ')' then opened.drop 1 else opened) [p] [] (position + 1) rest := by
  have later : [p].takeWhile (fun p => decide (p ≤ (position : Int))) = [] := by
    simp [List.takeWhile, Int.not_le.mpr beyond]
  rw [callsFrom, later]
  simp

/-- A balanced text leaves the open parentheses as they are. -/
theorem callsFrom_append {s : List Char} (balanced : Balanced s)
    (beyond : ((position + s.length : Nat) : Int) ≤ p) :
    callsFrom opened [p] [] position (s ++ rest) =
      callsFrom opened [p] [] (position + s.length) rest := by
  induction balanced generalizing opened position rest with
  | nil => rfl
  | calm opening closing _ ih =>
    rw [List.length_cons] at beyond ⊢
    rw [List.cons_append, callsFrom_cons (by omega), if_neg opening, if_neg closing,
      ih (by omega), Nat.add_right_comm, Nat.add_assoc]
  | @nest s t _ _ ih₁ ih₂ =>
    rw [List.length_cons, List.length_append, List.length_cons] at beyond ⊢
    rw [List.cons_append, List.append_assoc, List.cons_append, callsFrom_cons (by omega),
      if_pos rfl, ih₁ (by omega), callsFrom_cons (by omega), if_neg (by decide), if_pos rfl,
      List.drop_one, List.tail_cons, ih₂ (by omega)]
    congr 1
    omega

/-- What comes behind a balanced text stands in no call. -/
theorem callPositions_eq_nil {s : List Char} (balanced : Balanced s) :
    callPositions (s ++ rest) [(s.length : Int)] = [] := by
  have pending : (([(s.length : Int)].mergeSort (· ≤ ·)).eraseDups) = [(s.length : Int)] := by
    simp [List.eraseDups_cons]
  rw [callPositions, pending, callsFrom_append balanced (by omega), Nat.zero_add]
  cases rest with
  | nil => rfl
  | cons c rest =>
    rw [callsFrom]
    cases rest with
    | nil => simp [callsFrom]
    | cons d rest => simp [callsFrom]

end

end QueryWorkbench.Analysis
