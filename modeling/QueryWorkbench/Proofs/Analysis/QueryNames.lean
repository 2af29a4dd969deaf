/-
QueryWorkbench.Proofs.Analysis.QueryNames — the names that queries of a statement go by.

A query goes by a name in the list in front of a statement, or as a derived table anywhere in it
(`QueryName`). A report has every table and every pair of tables once, relates no table to itself,
and if it comes without warnings it has no such name among its tables
(`report_distinct_and_undefined`).

## How the proof goes

What is reported is filtered by the names that the scan has come across, so it is enough that a
complete scan comes across all of them. Of the derived tables of one text this is known
(`DerivedTable.defined_mem_scan`). A statement is scanned text by text: the list is read name by
name, and a query of it ends where its parenthesis is closed. No derived table opens between two
queries of the list (`DerivedTable.OpensIn.cteHead`, `DerivedTable.OpensIn.cteSeparator`), because
the only parenthesis there is that of a list of columns, with AS behind it and no alias
(`DerivedTable.not_columns`). So each derived table lies in one of the texts that are scanned, by
induction on the fuel (`DerivedTable.OpensIn.defined_mem_scanNamed`), and both kinds of names are
found (`QueryName.defined_mem_scanStatement`).

## The side condition

Only the last part asks that there be no warning. A query that a limit leaves out may be where a
name is given, and the table of that name is then reported from the texts that are read.
-/
import QueryWorkbench.Proofs.Pattern.Reading
import QueryWorkbench.Proofs.Analysis.DerivedTables
import QueryWorkbench.Proofs.Analysis.Reported

namespace QueryWorkbench.Analysis

open Pattern Text

/-! ## The list of named queries -/

/-- A place where a named query of the list in front of a text may start. -/
inductive InList (text : List Char) : Place → Prop
  | first {m : Match Part} : withHead.matchAt? (Place.start text) = some m → InList text m.stop
  | next {here : Place} {m s : Match Part} {n : Nat} : InList text here →
      cteHead.matchAt? here = some m → closing? 1 0 m.stop.rest = some n →
      cteSeparator.matchAt? (m.stop.skip (n + 1)) = some s → InList text s.stop

/-- A name that a query of a text goes by. -/
inductive QueryName (text : List Char) : String → Prop
  | listed {here : Place} {m : Match Part} : InList text here → cteHead.matchAt? here = some m →
      QueryName text (partText m .table)
  | derived (d : DerivedTable text) : QueryName text d.name

/-- The words of a list of named queries. -/
def listWords : List String := ["WITH", "RECURSIVE", "AS"]

theorem areWords_listWords : AreWords listWords := by decide

/-- The list starts behind a sealed front without parentheses. -/
theorem exists_sealed_of_withHead {text : List Char} {m : Match Part}
    (found : withHead.matchAt? (Place.start text) = some m) :
    ∃ x, text = x ++ m.stop.rest ∧ Sealed x ∧ '(' ∉ x := by
  have reads : withHead.Reads text m.stop.rest := reads_of_matchAt? found
  obtain ⟨x, whole, all⟩ := reads.exists_append
  refine ⟨x, whole, ?_, fun hx => absurd (all _ hx) (by decide)⟩
  obtain ⟨t₁, h₁, k₁⟩ := reads.exists_seq
  obtain ⟨t₂, h₂, k₂⟩ := k₁.exists_seq
  obtain ⟨t₃, h₃, k₃⟩ := k₂.exists_seq
  obtain ⟨t₄, h₄, k₄⟩ := k₃.exists_seq
  obtain ⟨a, start, -⟩ := h₁.exists_append
  obtain ⟨b, rfl, -⟩ := h₂.exists_append
  obtain ⟨w, rfl, spelled⟩ := h₃.exists_keyword
  obtain ⟨blanks, nonempty, rfl, blank⟩ := h₄.exists_someBlanks
  rcases Reads.of_option k₄ with k₄ | stays
  · obtain ⟨t₅, h₅, h₆⟩ := k₄.exists_seq
    obtain ⟨w', rfl, spelled'⟩ := h₅.exists_keyword
    obtain ⟨blanks', nonempty', split, blank'⟩ := Reads.exists_someBlanks h₆
    have front : x = (a ++ (b ++ (w ++ blanks))) ++ (w' ++ blanks') := by
      refine (List.append_left_inj m.stop.rest).mp ?_
      rw [← whole, start, split]
      simp only [List.append_assoc]
    rw [front]
    exact sealed_of_spells areWords_listWords (by decide : "RECURSIVE" ∈ listWords) (by decide) spelled'
      nonempty' blank' _
  · have front : x = (a ++ b) ++ (w ++ blanks) := by
      refine (List.append_left_inj m.stop.rest).mp ?_
      rw [← whole, start, stays]
      simp only [List.append_assoc]
    rw [front]
    exact sealed_of_spells areWords_listWords (by decide : "WITH" ∈ listWords) (by decide) spelled
      nonempty blank _

/-- A named query is a name, maybe columns in parentheses, AS and its parenthesis. -/
theorem exists_of_cteHead {here : Place} {m : Match Part} (found : cteHead.matchAt? here = some m) :
    ∃ named columns w blanks,
      here.rest = named ++ (columns ++ (w ++ (blanks ++ '(' :: m.stop.rest))) ∧ '(' ∉ named ∧
      (columns = [] ∨ ∃ cols more, columns = '(' :: (cols ++ ')' :: more) ∧ '(' ∉ cols ∧
        ')' ∉ cols ∧ ∀ c ∈ more, isBlank c = true) ∧
      Spells "AS" w ∧ ∀ c ∈ blanks, isBlank c = true := by
  obtain ⟨t₁, h₁, k₁⟩ := (reads_of_matchAt? found).exists_seq
  obtain ⟨t₂, h₂, k₂⟩ := k₁.exists_seq
  obtain ⟨t₃, h₃, k₃⟩ := k₂.exists_seq
  obtain ⟨t₄, h₄, k₄⟩ := k₃.exists_seq
  obtain ⟨t₅, h₅, k₅⟩ := k₄.exists_seq
  obtain ⟨t₆, h₆, k₆⟩ := k₅.exists_seq
  obtain ⟨a, start, all⟩ := h₁.exists_append
  obtain ⟨b, rfl, all'⟩ := h₂.exists_append
  obtain ⟨c, rfl, all''⟩ := h₃.exists_append
  obtain ⟨w, rfl, spelled⟩ := h₅.exists_keyword
  obtain ⟨blanks, rfl, blank⟩ := h₆.exists_greedy
  obtain rfl := (Reads.of_keep k₆).of_char
  have flat : '(' ∉ a ++ (b ++ c) := by
    simp only [List.mem_append, not_or]
    exact ⟨fun h => absurd (all _ h) (by decide), fun h => absurd (all' _ h) (by decide),
      fun h => absurd (all'' _ h) (by decide)⟩
  rcases h₄.of_option with h₄ | stays
  · obtain ⟨t₇, h₇, k₇⟩ := h₄.exists_seq
    obtain ⟨t₈, h₈, k₈⟩ := k₇.exists_seq
    obtain ⟨t₉, h₉, h₁₀⟩ := k₈.exists_seq
    obtain rfl := h₇.of_char
    obtain ⟨cols, rfl, plain⟩ := h₈.exists_greedy
    obtain rfl := h₉.of_char
    obtain ⟨more, rfl, blank'⟩ := Reads.exists_greedy h₁₀
    refine ⟨a ++ (b ++ c), '(' :: (cols ++ ')' :: more), w, blanks, by simp [start], flat,
      .inr ⟨cols, more, rfl, ?_, ?_, blank'⟩, spelled, blank⟩
    · exact fun h => absurd (plain _ h) (by decide)
    · exact fun h => absurd (plain _ h) (by decide)
  · exact ⟨a ++ (b ++ c), [], w, blanks, by simp [start, ← stays], flat, .inl rfl, spelled, blank⟩

/-- No alias stands in front of AS and a parenthesis. -/
theorem derivedAlias_eq_none {here : Place} {more w blanks rest : List Char}
    (split : here.rest = more ++ (w ++ (blanks ++ '(' :: rest)))
    (blank : ∀ c ∈ more, isBlank c = true) (spelled : Spells "AS" w)
    (blank' : ∀ c ∈ blanks, isBlank c = true) : derivedAlias.matchAt? here = none := by
  have words := areWords_listWords
  have as_mem : "AS" ∈ listWords := by decide
  have w_ne := ne_nil_of_spells words as_mem spelled
  have word := isWord_of_spells words as_mem spelled
  have paren : ('(' :: rest).head?.any isWord = false := (by decide : isWord '(' = false)
  have edge := head?_blank_append blank' paren
  refine Option.eq_none_iff_forall_ne_some.mpr fun m found => ?_
  obtain ⟨t₁, h₁, k₁⟩ := (reads_of_matchAt? found).exists_seq
  obtain ⟨t₂, h₂, k₂⟩ := k₁.exists_seq
  obtain ⟨a, split', blank_a⟩ := h₁.exists_greedy
  have ends : t₂.head?.any isWord = true := k₂.head?_isWord (by decide)
  -- A word behind the first blanks is where they end.
  have behind : t₁.head?.any isWord = true → t₁ = w ++ (blanks ++ '(' :: rest) := by
    intro inside
    have first := head?_isBlank_of_isWord w_ne word (blanks ++ '(' :: rest)
    obtain ⟨t, rfl, rfl⟩ := exists_of_append_eq first blank_a (split.symm.trans split')
    cases t with
    | nil => rfl
    | cons c t =>
      have outside : isWord c = false := isWord_of_isBlank (blank c (by simp))
      simp [outside] at inside
  rcases h₂.of_option with h₂ | rfl
  · obtain ⟨t₃, h₃, h₄⟩ := h₂.exists_seq
    obtain ⟨w', rfl, spelled'⟩ := h₃.exists_keyword
    obtain ⟨b, nonempty, rfl, blank_b⟩ := Reads.exists_someBlanks h₄
    have whole := behind (head?_isWord_of_all (ne_nil_of_spells words as_mem spelled')
      (isWord_of_spells words as_mem spelled') (b ++ t₂))
    have edge' : (b ++ t₂).head?.any isWord = false := by
      obtain ⟨c, b, rfl⟩ := List.exists_cons_of_ne_nil nonempty
      exact isWord_of_isBlank (blank_b c (List.mem_cons_self ..))
    obtain rfl : w' = w := by
      rw [← leading_of_spells words as_mem spelled' edge', whole,
        leading_of_spells words as_mem spelled edge]
    obtain ⟨t, rfl, rfl⟩ := exists_of_append_eq (p := isBlank) (by rfl) blank_b
      (List.append_cancel_left whole).symm
    rw [head?_blank_append (fun c hc => blank' c (List.mem_append_right _ hc)) paren] at ends
    cases ends
  · obtain ⟨t₃, h₃, -⟩ := k₂.exists_seq
    obtain ⟨-, ⟨before, position, there⟩, place, none⟩ := h₃.of_notAhead
    obtain rfl : there = w ++ (blanks ++ '(' :: rest) := place.trans (behind ends)
    have reserved : keyword (σ := Part) "AS" ∈ reservedWords.map keyword :=
      List.mem_map_of_mem (by decide)
    refine outcomes_whole_anyOf_ne_nil reserved (first_keyword spelled) ?_ none
    rw [Place.atWordEdge, List.getLast?_eq_some_getLast w_ne, edge]
    simp [word _ (List.getLast_mem w_ne)]

/-! ## Derived tables in the texts that are scanned -/

namespace DerivedTable

variable {text : List Char} (d : DerivedTable text)

theorem exists_split : ∃ outside r, text = outside ++ '(' :: r ∧
    d.paren.start.position = outside.length ∧ d.paren.start.rest = '(' :: r := by
  obtain ⟨k, hk, w, blanks, lead, rest, -, -, -, -, opens⟩ := d.exists_shape
  exact ⟨_, _, opens.split, congrArg Place.position opens.place, congrArg Place.rest opens.place⟩

/-- No derived table has AS and a parenthesis behind it. -/
theorem not_columns {cols more w blanks rest : List Char}
    (start : d.paren.start.rest = '(' :: (cols ++ ')' :: (more ++ (w ++ (blanks ++ '(' :: rest)))))
    (flat : '(' ∉ cols) (plain : ')' ∉ cols) (blank : ∀ c ∈ more, isBlank c = true)
    (spelled : Spells "AS" w) (blank' : ∀ c ∈ blanks, isBlank c = true) : False := by
  have level : height cols = 0 := by
    simp [height, List.count_eq_zero.mpr flat, List.count_eq_zero.mpr plain]
  have length : d.length = cols.length + 1 := by
    have closes := d.closes
    rw [start] at closes
    change closing? 1 1 _ = some d.length at closes
    rw [closing?_append, closing?_eq_none_of_not_mem plain, Option.none_or, level] at closes
    exact (Option.some.inj closes).symm.trans (Nat.add_comm 1 _)
  have alias_none : derivedAlias.matchAt? (d.paren.start.skip (d.length + 1)) = none := by
    have place : (d.paren.start.skip (d.length + 1)).rest =
        more ++ (w ++ (blanks ++ '(' :: rest)) := by
      rw [Place.rest_skip, start, length]
      simp
    exact derivedAlias_eq_none place blank spelled blank'
  rw [d.aliased] at alias_none
  cases alias_none

/-- No derived table opens where there is no parenthesis. -/
theorem length_le_of_not_mem {x y r : List Char} (split : text = x ++ (y ++ r)) (flat : '(' ∉ y)
    (behind : x.length ≤ d.paren.start.position) : (x ++ y).length ≤ d.paren.start.position := by
  obtain ⟨outside, rest, split', position, -⟩ := d.exists_split
  obtain ⟨a, rfl, inner⟩ := exists_append_of_le (split.symm.trans split') (position ▸ behind)
  obtain ⟨b, rfl, -⟩ := exists_append_of_not_mem inner flat
  rw [position]
  simp only [List.length_append]
  omega

/-- No derived table opens in the columns of a named query. -/
theorem length_le_of_columns {x columns w blanks r : List Char}
    (split : text = x ++ (columns ++ (w ++ (blanks ++ '(' :: r))))
    (shape : columns = [] ∨ ∃ cols more, columns = '(' :: (cols ++ ')' :: more) ∧ '(' ∉ cols ∧
      ')' ∉ cols ∧ ∀ c ∈ more, isBlank c = true)
    (spelled : Spells "AS" w) (blank : ∀ c ∈ blanks, isBlank c = true)
    (behind : x.length ≤ d.paren.start.position) :
    (x ++ columns).length ≤ d.paren.start.position := by
  rcases shape with rfl | ⟨cols, more, rfl, flat, plain, blank'⟩
  · rwa [List.append_nil]
  rcases Nat.eq_or_lt_of_le behind with same | further
  · -- The parenthesis of the columns has AS behind it, and no alias.
    obtain ⟨outside, rest, split', position, start⟩ := d.exists_split
    obtain ⟨rfl, inner⟩ := List.append_inj (split.symm.trans split') (same.trans position)
    rw [List.cons_append, List.append_assoc, List.cons_append] at inner
    exact (d.not_columns (start.trans inner.symm) flat plain blank' spelled blank).elim
  · have flat' : '(' ∉ cols ++ ')' :: more := by
      rw [List.mem_append, List.mem_cons, not_or, not_or]
      exact ⟨flat, by decide, not_mem_of_blank blank' (by decide)⟩
    rw [← List.singleton_append, List.append_assoc, ← List.append_assoc x] at split
    have inside := d.length_le_of_not_mem split flat'
      (by rw [List.length_append, List.length_singleton]; omega)
    rwa [List.append_assoc, List.singleton_append] at inside

/-- A derived table opens in what is left of a text behind a sealed front. -/
def OpensIn (s : List Char) : Prop :=
  ∃ x, text = x ++ s ∧ Sealed x ∧ x.length ≤ d.paren.start.position

namespace OpensIn

variable {d} {limit : Int} {levels : Nat} {s : List Char}

/-- Behind what has no parenthesis the same derived table opens. -/
theorem skip {y : List Char} (h : d.OpensIn (y ++ s)) (flat : '(' ∉ y)
    (closed : ∀ x, Sealed x → Sealed (x ++ y)) : d.OpensIn s := by
  obtain ⟨x, split, front, behind⟩ := h
  exact ⟨x ++ y, by rw [split, List.append_assoc], closed x front,
    d.length_le_of_not_mem split flat behind⟩

/-- Up to blanks at its end a text has a derived table that opens in it. -/
theorem defined_mem {trail : List Char} (h : d.OpensIn (s ++ trail))
    (blank : ∀ c ∈ trail, isBlank c = true) (complete : Complete (scan limit levels s)) :
    .defined (lower d.name) ∈ scan limit levels s := by
  obtain ⟨x, split, closed, behind⟩ := h
  let e : Excerpt text :=
    { front := x, part := s, tail := trail
      split, edge := closed.edge
      closing := by simpa using closingTail_append blank .ended
      closed := fun h => absurd h (not_mem_of_blank blank (by decide)) }
  obtain ⟨outside, rest, split', position, -⟩ := d.exists_split
  have before : d.paren.start.position < x.length + s.length := by
    rw [position, ← List.length_append]
    refine Nat.lt_of_not_le fun le => not_mem_of_blank blank (c := '(') (by decide) ?_
    obtain ⟨a, -, inner⟩ := exists_append_of_le
      ((List.append_assoc ..).trans (split.symm.trans split')) le
    simp [inner]
  obtain ⟨d', same⟩ := e.exists_derivedTable closed d behind before
  exact same ▸ d'.defined_mem_scan complete

theorem defined_mem_trim (h : d.OpensIn s) (complete : Complete (scan limit levels (trim s))) :
    .defined (lower d.name) ∈ scan limit levels (trim s) := by
  obtain ⟨lead, trail, whole, blank, blank'⟩ := exists_trim s
  rw [whole] at h
  exact (h.skip (not_mem_of_blank blank (by decide)) fun _ closed =>
    closed.append_blank blank).defined_mem blank' complete

/-- No derived table opens at or in front of the parenthesis of a named query. -/
theorem cteHead {here : Place} {m : Match Part} (h : d.OpensIn here.rest)
    (found : Analysis.cteHead.matchAt? here = some m) : d.OpensIn m.stop.rest := by
  obtain ⟨x, split, -, behind⟩ := h
  obtain ⟨named, columns, w, blanks, head, flat, shape, spelled, blank⟩ := exists_of_cteHead found
  have as_mem : "AS" ∈ listWords := by decide
  have flat_words : '(' ∉ w ++ blanks := by
    rw [List.mem_append, not_or]
    refine ⟨fun hw => ?_, not_mem_of_blank blank (by decide)⟩
    exact absurd (isWord_of_spells areWords_listWords as_mem spelled _ hw) (by decide)
  rw [head] at split
  have behind_name := d.length_le_of_not_mem split flat behind
  rw [← List.append_assoc] at split
  have behind_columns := d.length_le_of_columns split shape spelled blank behind_name
  rw [← List.append_assoc, ← List.append_assoc w] at split
  have behind_words := d.length_le_of_not_mem split flat_words behind_columns
  rw [← List.append_assoc] at split
  -- A derived table at the parenthesis would have FROM or JOIN in front of it, and not AS.
  have further : d.paren.start.position ≠ (x ++ named ++ columns ++ (w ++ blanks)).length := by
    intro same
    have opened := d.endsOpen_of_split split same
    rw [← List.append_assoc, endsOpen_append_blank blank,
      endsOpen_append_of_spells areWords_listWords as_mem spelled] at opened
    exact absurd opened (by decide)
  refine ⟨x ++ named ++ columns ++ (w ++ blanks) ++ ['('], by rw [split]; simp,
    sealed_concat (by decide) (by decide) _, ?_⟩
  rw [List.length_append, List.length_singleton]
  omega

/-- A derived table opens in a query that is closed, and is found there, or behind it. -/
theorem defined_mem_or {n : Nat} (h : d.OpensIn s) (closes : closing? 1 0 s = some n)
    (complete : Complete (scan limit levels (s.take n))) :
    .defined (lower d.name) ∈ scan limit levels (s.take n) ∨ d.OpensIn (s.drop (n + 1)) := by
  obtain ⟨x, split, closed, behind⟩ := h
  obtain ⟨body, after, rfl, rfl, open_, level⟩ := exists_of_closing? closes
  have take : (body ++ ')' :: after).take (0 + body.length) = body := by simp
  have drop : (body ++ ')' :: after).drop (0 + body.length + 1) = after := by simp
  rw [take] at complete ⊢
  rw [drop]
  by_cases before : d.paren.start.position < x.length + body.length
  · let e : Excerpt text :=
      { front := x, part := body, tail := ')' :: after
        split, edge := closed.edge, closing := .closed after
        closed := fun _ => ⟨open_, by omega⟩ }
    obtain ⟨d', same⟩ := e.exists_derivedTable closed d behind before
    exact .inl (same ▸ d'.defined_mem_scan complete)
  · rw [← List.append_assoc, ← List.singleton_append] at split
    exact .inr ⟨x ++ body ++ [')'], by rw [split]; simp, sealed_concat (by decide) (by decide) _,
      d.length_le_of_not_mem split (by decide) (by rw [List.length_append]; omega)⟩

theorem cteSeparator {here : Place} {m : Match Part} (h : d.OpensIn here.rest)
    (found : Analysis.cteSeparator.matchAt? here = some m) : d.OpensIn m.stop.rest := by
  obtain ⟨t, h₁, h₂⟩ := (reads_of_matchAt? found).exists_seq
  obtain ⟨blanks, split, blank⟩ := h₁.exists_greedy
  obtain rfl := Reads.of_char h₂
  rw [split, ← List.singleton_append, ← List.append_assoc] at h
  refine h.skip ?_ fun x _ => ?_
  · rw [List.mem_append, not_or]
    exact ⟨not_mem_of_blank blank (by decide), by decide⟩
  · rw [← List.append_assoc]
    exact sealed_concat (by decide) (by decide) _

/-- A derived table that opens in the list or behind it is found in one of the queries of the list,
or in the query behind the list. -/
theorem defined_mem_scanNamed {deep fuel : Nat} {here : Place} (h : d.OpensIn here.rest)
    (complete : Complete ((scanNamed limit levels fuel here).1 ++
      scan limit deep (scanNamed limit levels fuel here).2)) :
    .defined (lower d.name) ∈ (scanNamed limit levels fuel here).1 ++
      scan limit deep (scanNamed limit levels fuel here).2 := by
  induction fuel generalizing here with
  | zero => exact List.mem_append_right _ (h.defined_mem_trim (complete_append.mp complete).2)
  | succ fuel ih =>
    simp only [scanNamed] at complete ⊢
    cases head : Analysis.cteHead.matchAt? here with
    | none =>
      rw [head] at complete
      exact List.mem_append_right _ (h.defined_mem_trim (complete_append.mp complete).2)
    | some m =>
      replace h := h.cteHead head
      cases closes : closing? 1 0 m.stop.rest with
      | none =>
        simp only [head, closes, List.cons_append, complete_defined, complete_append] at complete ⊢
        rw [← List.append_nil m.stop.rest] at h
        exact List.mem_cons_of_mem _ (List.mem_append_left _ (h.defined_mem (by simp) complete.1))
      | some n =>
        cases separated : Analysis.cteSeparator.matchAt? (m.stop.skip (n + 1)) with
        | none =>
          simp only [head, closes, separated, List.cons_append, complete_defined,
            complete_append] at complete ⊢
          refine List.mem_cons_of_mem _ (List.mem_append.mpr ?_)
          refine (h.defined_mem_or closes complete.1).imp_right fun behind => ?_
          rw [← Place.rest_skip] at behind
          exact behind.defined_mem_trim complete.2
        | some s =>
          simp only [head, closes, separated, List.cons_append, List.append_assoc, complete_defined,
            complete_append] at complete ⊢
          refine List.mem_cons_of_mem _ (List.mem_append.mpr ?_)
          refine (h.defined_mem_or closes complete.1).imp_right fun behind => ?_
          rw [← Place.rest_skip] at behind
          exact ih (behind.cteSeparator separated) (complete_append.mpr complete.2)

end OpensIn

end DerivedTable

/-! ## Whole statements -/

section

variable {limit : Int} {text : List Char}

/-- The scan of the list comes to every place of it, with enough left to read on. -/
theorem InList.exists_fuel {here : Place} (h : InList text here) (limit : Int) (levels : Nat) :
    ∃ head, withHead.matchAt? (Place.start text) = some head ∧ ∃ fuel, here.rest.length ≤ fuel ∧
      ∀ e ∈ (scanNamed limit levels fuel here).1,
        e ∈ (scanNamed limit levels head.stop.rest.length head.stop).1 := by
  induction h with
  | first found => exact ⟨_, found, _, Nat.le_refl _, fun _ he => he⟩
  | @next here m s n _ head closes separated ih =>
    obtain ⟨start, found, fuel, enough, listed⟩ := ih
    obtain ⟨named, columns, w, blanks, split, -⟩ := exists_of_cteHead head
    obtain ⟨a, split', -⟩ := (reads_of_matchAt? separated).exists_append
    have shorter : s.stop.rest.length < here.rest.length := by
      have length := congrArg List.length split'
      rw [Place.rest_skip, List.length_drop, List.length_append] at length
      rw [split]
      simp only [List.length_append, List.length_cons]
      omega
    obtain ⟨k, rfl⟩ : ∃ k, fuel = k + 1 := ⟨fuel - 1, by omega⟩
    refine ⟨start, found, k, by omega, fun e he => listed e ?_⟩
    simp only [scanNamed, head, closes, separated]
    exact List.mem_append_right _ he

/-- A complete scan of a statement comes across the names of all its queries. -/
theorem QueryName.defined_mem_scanStatement {maxDepth : Int} {name : String}
    (h : QueryName text name) (complete : Complete (scanStatement limit maxDepth text)) :
    .defined (lower name) ∈ scanStatement limit maxDepth text := by
  cases h with
  | @listed here m place found =>
    obtain ⟨head, start, fuel, enough, listed⟩ := place.exists_fuel limit (maxDepth - 1).toNat
    obtain ⟨named, columns, w, blanks, split, -⟩ := exists_of_cteHead found
    obtain ⟨k, rfl⟩ : ∃ k, fuel = k + 1 := by
      refine ⟨fuel - 1, ?_⟩
      rw [split] at enough
      simp only [List.length_append, List.length_cons] at enough
      omega
    simp only [scanStatement, start]
    refine List.mem_append_left _ (listed _ ?_)
    have name_eq : lower (partText m .table) = String.ofList (lowerChars (m.part .table)) := by
      rw [lower, partText, String.toList_ofList]
    simp only [name_eq, scanNamed, found]
    cases closing? 1 0 m.stop.rest with
    | none => exact List.mem_cons_self ..
    | some n =>
      simp only
      cases cteSeparator.matchAt? (m.stop.skip (n + 1)) <;> exact List.mem_cons_self ..
  | derived d =>
    simp only [scanStatement] at complete ⊢
    cases start : withHead.matchAt? (Place.start text) with
    | none =>
      rw [start] at complete
      exact d.defined_mem_scan complete
    | some head =>
      simp only [start] at complete ⊢
      obtain ⟨x, split, closed, flat⟩ := exists_sealed_of_withHead start
      have opens : d.OpensIn head.stop.rest :=
        ⟨x, split, closed, d.length_le_of_not_mem (x := []) split flat (Nat.zero_le _)⟩
      exact opens.defined_mem_scanNamed complete

end

/-- An analysis without warnings is complete. -/
theorem complete_of_quiet {limits : Limits} {sql : String} (quiet : (analyze limits sql).2 = []) :
    Complete (eventsOf limits sql) := by
  rw [analyze] at quiet
  split at quiet
  · cases quiet
  · exact (complete_append.mp (warningsOf_eq_nil_iff.mp quiet)).1

/-- A report lists no table twice, relates no table to itself and no two tables twice, and without
warnings it has no name that a query goes by. -/
theorem report_distinct_and_undefined (limits : Limits) (sql : String) :
    ((analyze limits sql).1.tables.map lower).Nodup ∧
    (∀ j ∈ (analyze limits sql).1.joins, lower j.source ≠ lower j.target) ∧
    (analyze limits sql).1.joins.Pairwise (fun j k => sameTables j k = false) ∧
    ((analyze limits sql).2 = [] → ∀ name, QueryName (scrubChars sql.toList) name →
      (∀ t ∈ (analyze limits sql).1.tables, lower t ≠ lower name) ∧
      ∀ j ∈ (analyze limits sql).1.joins, lower j.source ≠ lower name ∧ lower j.target ≠ lower name) := by
  by_cases short : sql.length ≤ limits.maxLength
  · obtain ⟨tables, joins⟩ := analyze_of_le short
    rw [tables, joins]
    have related : ∀ j ∈ firstPairs [] ((equalitiesOf limits.maxMatches (scrubChars sql.toList)).filterMap
        (findingsOf limits sql).relate?), ∃ e, (findingsOf limits sql).relate e = some j := by
      intro j hj
      obtain ⟨m, -, same⟩ := List.mem_filterMap.mp (mem_firstPairs hj).1
      exact ⟨_, Findings.relate?_eq .. ▸ same⟩
    refine ⟨nodup_firstMentions _ _, fun j hj => ?_, pairwise_firstPairs _ _, fun quiet name h => ?_⟩
    · obtain ⟨e, related⟩ := related j hj
      exact (of_relate related).2.2.2
    · have defined : lower name ∈ (findingsOf limits sql).defined :=
        foldl_add_defined (h.defined_mem_scanStatement (complete_of_quiet quiet)) {}
      refine ⟨fun t ht same => (mem_uniqueTables ht).2 (same ▸ defined), fun j hj => ?_⟩
      obtain ⟨e, related⟩ := related j hj
      obtain ⟨-, -, undefined, -⟩ := of_relate related
      exact ⟨fun same => undefined j.source (by simp) (same ▸ defined),
        fun same => undefined j.target (by simp) (same ▸ defined)⟩
  · rw [analyze_of_lt (Int.not_le.mp short)]
    exact ⟨.nil, nofun, .nil, fun _ _ _ => ⟨nofun, nofun⟩⟩

/-- A table whose name turns out to be that of a derived table. -/
def lateName : String := "SELECT * FROM t WHERE id IN (SELECT id FROM (SELECT id FROM s) T)"

/-- A table that is a named query. -/
def recentOrders : String := "WITH recent AS (SELECT id FROM orders) SELECT id FROM Recent"

/-- Neither the name of a derived table nor that of a named query is a table. -/
theorem report_distinct_and_undefined_lateName :
    let L : Limits := ⟨200000, 5000, 5⟩
    (QueryName (scrubChars lateName.toList) "T" ∧ (analyze L lateName).2 = [] ∧
      ((∀ t ∈ (analyze L lateName).1.tables, lower t ≠ lower "T") ∧
        ∀ j ∈ (analyze L lateName).1.joins, lower j.source ≠ lower "T" ∧ lower j.target ≠ lower "T")) ∧
    QueryName (scrubChars recentOrders.toList) "recent" ∧ (analyze L recentOrders).2 = [] ∧
      (∀ t ∈ (analyze L recentOrders).1.tables, lower t ≠ lower "recent") ∧
      ∀ j ∈ (analyze L recentOrders).1.joins,
        lower j.source ≠ lower "recent" ∧ lower j.target ≠ lower "recent" := by
  intro L
  have quiet : (analyze L lateName).2 = [] := by
    simp only [L, analyze, reportOf, scanStatement, Int.reduceToNat, scan, nestedQueries,
      firstAtEach_mergeSort, surface, callPositions_eq]
    decide +kernel
  have quiet' : (analyze L recentOrders).2 = [] := by decide +kernel
  have derived : QueryName (scrubChars lateName.toList) "T" := by
    have split : scrubChars lateName.toList = (scrubChars lateName.toList).take 39 ++
      (scrubChars lateName.toList).drop 39 := (List.take_append_drop ..).symm
    rw [split]
    have found : derivedName? (.between ((scrubChars lateName.toList).take 39)
        ((scrubChars lateName.toList).drop 39)) = some "T" := by decide +kernel
    obtain ⟨d, same⟩ := exists_of_derivedName? found
    exact same ▸ .derived d
  have listed : QueryName (scrubChars recentOrders.toList) "recent" := by
    have found : ((withHead.matchAt? (Place.start (scrubChars recentOrders.toList))).bind fun head =>
        (cteHead.matchAt? head.stop).map (partText · .table)) = some "recent" := by decide +kernel
    obtain ⟨head, start, found⟩ := Option.bind_eq_some_iff.mp found
    obtain ⟨m, named, same⟩ := Option.map_eq_some_iff.mp found
    exact same ▸ .listed (.first start) named
  exact ⟨⟨derived, quiet, (report_distinct_and_undefined L lateName).2.2.2 quiet "T" derived⟩,
    listed, quiet', (report_distinct_and_undefined L recentOrders).2.2.2 quiet' "recent" listed⟩

end QueryWorkbench.Analysis
