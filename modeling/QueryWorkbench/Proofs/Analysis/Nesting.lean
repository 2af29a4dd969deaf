/-
QueryWorkbench.Proofs.Analysis.Nesting — the queries nested in a text.

Every opening of a text makes the query behind it an enclosure of the text (`exists_enclosure`). The
openings of a text are kept in ascending order, the first one at each position
(`mem_candidates_iff`), and those that are not outermost lie in the query of an outermost one
(`exists_covering`).

## How the proof goes

Three patterns open a query, and what is used of them is the same (`QueryOpening`): each ends with a
parenthesis, blanks and SELECT, starts with no blank, and is found in a part of a text as in the
text. So a match of any is a place that `OpensQuery`. The parenthesis of the place is closed later
or never. In both cases what is between, without the blanks around it, starts with SELECT again and
stands in the text with an opening parenthesis somewhere in front of it, and that is an `Enclosure`:
what is found in the part is found in the text.

Which openings are kept is a matter of order alone. Sorting is stable, so that of several openings
at one position the first one found stays first, and `firstAtEach` keeps that one. The sort of the
program is compared with insertion sort once (`firstAtEach_mergeSort`), because insertion sort can
be evaluated on a given text. The outermost openings are then picked from left to right, and
whatever is passed over lies inside the one picked before (`exists_covering`), by induction over the
list.

## Why a limit is in the statements

A pass stops after so many matches, so that an opening is found if not too many matches are in front
of it. The matches in a query are consecutive ones among those of the whole text. What the pass over
the whole text reaches there is therefore reached over the query alone, under the same limit
(`Enclosure.candidate_of_mem`), and nothing has to be said of what a limit leaves out.
-/
import QueryWorkbench.Proofs.Analysis.Calls
import QueryWorkbench.Proofs.Analysis.Openings

namespace QueryWorkbench.Analysis

open Pattern Text

/-! ## A character in one of two parts -/

section

variable {s t a b : List Char} {c : Char}

theorem exists_append_of_le (split : s ++ t = a ++ c :: b) (le : s.length ≤ a.length) :
    ∃ a', a = s ++ a' ∧ t = a' ++ c :: b := by
  rcases List.append_eq_append_iff.mp split with ⟨a', h⟩ | ⟨e, longer, more⟩
  · exact ⟨a', h⟩
  · cases e with
    | nil => exact ⟨[], by simpa using longer.symm, more.symm⟩
    | cons d e =>
      rw [longer, List.length_append, List.length_cons] at le
      omega

theorem exists_append_of_lt (split : s ++ t = a ++ c :: b) (lt : a.length < s.length) :
    ∃ b', s = a ++ c :: b' ∧ b = b' ++ t := by
  rcases List.append_eq_append_iff.mp split with ⟨a', longer, -⟩ | ⟨e, longer, more⟩
  · rw [longer, List.length_append] at lt
    omega
  · cases e with
    | nil => simp [longer] at lt
    | cons d e =>
      obtain ⟨rfl, rest⟩ := List.cons.inj more
      exact ⟨e, longer, rest⟩

theorem exists_append_of_not_mem (split : s ++ t = a ++ c :: b) (absent : c ∉ s) :
    ∃ a', a = s ++ a' ∧ t = a' ++ c :: b := by
  refine exists_append_of_le split (Nat.le_of_not_lt fun lt => ?_)
  obtain ⟨b', rfl, -⟩ := exists_append_of_lt split lt
  exact absent (by simp)

end

theorem mem_take_of_mem_middle {α : Type} {x y z : List α} {k : Nat} {m : α}
    (hm : m ∈ (x ++ (y ++ z)).take k) (before : m ∉ x) (behind : m ∉ z) : m ∈ y.take k := by
  rw [List.take_append, List.take_append, List.mem_append, List.mem_append] at hm
  rcases hm with hm | hm | hm
  · exact absurd (List.mem_of_mem_take hm) before
  · exact List.take_subset_take_left _ (Nat.sub_le _ _) hm
  · exact absurd (List.mem_of_mem_take hm) behind

/-! ## Openings of queries -/

/-- A pattern of an opening. -/
structure QueryOpening (p : Pattern Part) : Prop where
  leads : LeadsToQuery p
  contained : Contained p
  starts : ∀ here, p.outcomes here ≠ [] → here.rest.head?.any isBlank = false

/-- What a word starts, no blank starts. -/
theorem not_isBlank_of_wordStarts {p : Pattern Part} (words : p.wordStarts.1 = true) (here : Place)
    (some : p.outcomes here ≠ []) : here.rest.head?.any isBlank = false := by
  obtain ⟨o, ho⟩ := List.exists_mem_of_ne_nil _ some
  have word := (head?_of_wordStarts ho).1 words
  cases first : here.rest.head? with
  | none => rfl
  | some c =>
    rw [first] at word
    exact not_isBlank_of_isWord word

theorem queryOpening_derivedOpening : QueryOpening derivedOpening :=
  ⟨leadsToQuery_derivedOpening, ⟨by decide, by decide, by decide⟩,
    not_isBlank_of_wordStarts (by decide)⟩

theorem queryOpening_predicateOpening : QueryOpening predicateOpening :=
  ⟨leadsToQuery_predicateOpening, ⟨by decide, by decide, by decide⟩,
    not_isBlank_of_wordStarts (by decide)⟩

theorem queryOpening_scalarOpening : QueryOpening scalarOpening := by
  refine ⟨leadsToQuery_scalarOpening, ⟨by decide, by decide, by decide⟩, fun here some => ?_⟩
  obtain ⟨o, ho⟩ := List.exists_mem_of_ne_nil _ some
  obtain ⟨o₁, h₁, -⟩ := mem_outcomes_seq.mp ho
  obtain ⟨o', ho', -⟩ := mem_outcomes_keep.mp h₁
  obtain ⟨c, rest, split, paren, -⟩ := mem_outcomes_one ho'
  obtain rfl : c = '(' := by simpa [CharSet.has] using paren
  rw [split]
  exact (by decide : isBlank '(' = false)

/-! ## Openings of a text -/

/-- A place of a text in front of a parenthesis with a query in it. -/
structure OpensQuery (text : List Char) (here : Place) (outside lead rest : List Char) : Prop where
  split : text = outside ++ '(' :: (lead ++ rest)
  place : here = .between outside ('(' :: (lead ++ rest))
  blank : ∀ c ∈ lead, isBlank c = true
  starts : Spells "SELECT" (leading rest)

theorem mem_openings {derived : Bool} {found : List (Match Part)} {o : Opening} :
    o ∈ openings derived found ↔
      ∃ m ∈ found, ∃ s, Assoc.get? Part.opening m.kept = some s ∧ ⟨s.start, derived⟩ = o := by
  simp only [openings, List.mem_filterMap, Option.map_eq_some_iff]

/-- Every match of an opening in a text leads to a query of the text. -/
theorem QueryOpening.exists_leads {p : Pattern Part} (h : QueryOpening p) {a b : List Char}
    {m : Match Part} (found : p.matchAt? (.between a b) = some m) :
    ∃ head lead rest, Leads (.between a b) (m.stop, m.kept) head lead rest := by
  rw [matchAt?_eq_head?] at found
  obtain ⟨o, ho, rfl⟩ := Option.map_eq_some_iff.mp found
  exact h.leads _ o (List.mem_of_head? ho)

/-- What a match keeps opens a query. -/
theorem Leads.opensQuery {a b : List Char} {o : Place × Kept Part} {head lead rest : List Char}
    (h : Leads (.between a b) o head lead rest) : ∃ s, Assoc.get? Part.opening o.2 = some s ∧
      OpensQuery (a ++ b) s.start (a ++ head) lead rest := by
  have split : b = head ++ '(' :: (lead ++ rest) := h.split
  refine ⟨_, h.opening, by rw [split, List.append_assoc], ?_, h.blank, h.starts⟩
  simp [Place.between, List.getLast?_append]

theorem QueryOpening.exists_of_mem_openings {p : Pattern Part} (h : QueryOpening p)
    {text : List Char} {derived : Bool} {o : Opening} (ho : o ∈ openings derived (p.findAll text)) :
    ∃ outside lead rest, OpensQuery text o.place outside lead rest := by
  obtain ⟨m, hm, s, kept, rfl⟩ := mem_openings.mp ho
  obtain ⟨a, b, rfl, -, found⟩ := exists_of_mem_findAll hm
  obtain ⟨head, lead, rest, leads⟩ := h.exists_leads found
  obtain ⟨s', kept', opens⟩ := leads.opensQuery
  obtain rfl : s = s' := Option.some.inj (kept.symm.trans kept')
  exact ⟨_, _, _, opens⟩

/-- The openings that the passes over a text find. -/
def foundOpenings (limit : Int) (text : List Char) : List Opening :=
  openings true (bounded limit derivedOpening text).1 ++
    openings false (bounded limit predicateOpening text).1 ++
    openings false (bounded limit scalarOpening text).1

/-- The openings in ascending order, the first one at each position. -/
def candidates (limit : Int) (text : List Char) : List Opening :=
  firstAtEach none ((foundOpenings limit text).mergeSort fun a b => a.place.position ≤ b.place.position)

theorem nestedQueries_fst (limit : Int) (text : List Char) :
    (nestedQueries limit text).1 = outermost 0 (candidates limit text) := rfl

theorem bounded_fst (limit : Int) (p : Pattern Part) (text : List Char) :
    (bounded limit p text).1 = (p.findAll text).take limit.toNat := rfl

/-- Every opening is found by one of the patterns, in this text and in all others. -/
theorem mem_foundOpenings {limit : Int} {text : List Char} {o : Opening}
    (ho : o ∈ foundOpenings limit text) : ∃ p derived, QueryOpening p ∧
      o ∈ openings derived (bounded limit p text).1 ∧
      ∀ limit' text', ∀ o ∈ openings derived (bounded limit' p text').1,
        o ∈ foundOpenings limit' text' := by
  rw [foundOpenings, List.mem_append, List.mem_append] at ho
  simp only [foundOpenings, List.mem_append]
  rcases ho with (ho | ho) | ho
  · exact ⟨_, _, queryOpening_derivedOpening, ho, fun _ _ o ho => .inl (.inl ho)⟩
  · exact ⟨_, _, queryOpening_predicateOpening, ho, fun _ _ o ho => .inl (.inr ho)⟩
  · exact ⟨_, _, queryOpening_scalarOpening, ho, fun _ _ o ho => .inr ho⟩

theorem exists_opensQuery_of_mem_foundOpenings {limit : Int} {text : List Char} {o : Opening}
    (ho : o ∈ foundOpenings limit text) :
    ∃ outside lead rest, OpensQuery text o.place outside lead rest := by
  obtain ⟨p, derived, opening, ho, -⟩ := mem_foundOpenings ho
  obtain ⟨m, hm, kept⟩ := mem_openings.mp ho
  exact opening.exists_of_mem_openings (mem_openings.mpr ⟨m, List.mem_of_mem_take hm, kept⟩)

/-- A position of a text is that of one opening place. -/
theorem OpensQuery.place_eq {text : List Char} {here there : Place} {a l r a' l' r' : List Char}
    (h : OpensQuery text here a l r) (h' : OpensQuery text there a' l' r')
    (same : here.position = there.position) : here = there := by
  have split := h.split.symm.trans h'.split
  rw [h.place, h'.place] at same ⊢
  obtain ⟨rfl, rest⟩ := List.append_inj split same
  rw [rest]

/-! ## The first opening at each position -/

/-- Openings in ascending order. -/
abbrev Ascending (l : List Opening) : Prop := l.Pairwise fun a b => a.place.position ≤ b.place.position

theorem mem_firstAtEach {last : Option Nat} {l : List Opening} (sorted : Ascending l)
    (behind : ∀ i, last = some i → ∀ o ∈ l, i ≤ o.place.position) {o : Opening} :
    o ∈ firstAtEach last l ↔ last ≠ some o.place.position ∧
      l.find? (fun x => x.place.position == o.place.position) = some o := by
  induction l generalizing last with
  | nil => simp [firstAtEach]
  | cons x rest ih =>
    obtain ⟨first, sorted⟩ := List.pairwise_cons.mp sorted
    rw [firstAtEach, List.find?_cons]
    by_cases again : last = some x.place.position
    · rw [if_pos again, ih sorted fun i hi o ho => behind i hi o (List.mem_cons_of_mem _ ho)]
      refine and_congr_right fun other => ?_
      have skipped : x.place.position ≠ o.place.position := fun same => other (same ▸ again)
      rw [beq_eq_false_iff_ne.mpr skipped]
    · rw [if_neg again, List.mem_cons, ih sorted fun i hi o ho => Option.some.inj hi ▸ first o ho]
      by_cases same : x.place.position = o.place.position
      · have fresh : last ≠ some o.place.position := same ▸ again
        simp [fresh, same, eq_comm]
      · have other : o ≠ x := fun h => same (congrArg (·.place.position) h.symm)
        simp only [other, false_or, beq_eq_false_iff_ne.mpr same]
        refine and_congr_left fun found => ?_
        have ho := List.mem_of_find?_eq_some found
        refine iff_of_true (fun h => same (Option.some.inj h)) fun h => ?_
        have le := behind _ h x (List.mem_cons_self ..)
        have := first o ho
        omega

theorem pairwise_firstAtEach {last : Option Nat} {l : List Opening} (sorted : Ascending l) :
    (firstAtEach last l).Pairwise fun a b => a.place.position < b.place.position := by
  induction l generalizing last with
  | nil => exact .nil
  | cons x rest ih =>
    obtain ⟨first, sorted⟩ := List.pairwise_cons.mp sorted
    rw [firstAtEach]
    split
    · exact ih sorted
    · refine .cons (fun o ho => ?_) (ih sorted)
      rw [mem_firstAtEach sorted fun i hi o ho => Option.some.inj hi ▸ first o ho] at ho
      have le := first o (List.mem_of_find?_eq_some ho.2)
      have ne : x.place.position ≠ o.place.position := fun same => ho.1 (congrArg some same)
      omega

theorem ascending_mergeSort (l : List Opening) :
    Ascending (l.mergeSort fun a b => a.place.position ≤ b.place.position) := by
  have le : (l.mergeSort fun a b => a.place.position ≤ b.place.position).Pairwise
      fun a b => decide (a.place.position ≤ b.place.position) = true :=
    List.pairwise_mergeSort (by simp only [decide_eq_true_eq]; omega)
      (by simp only [Bool.or_eq_true, decide_eq_true_eq]; omega) l
  exact le.imp (by simp)

/-- A stable sort leaves the openings at one position in their order. -/
theorem find?_of_stable {l sorted : List Opening} (perm : sorted.Perm l)
    (stable : ∀ c : List Opening, Ascending c → c.Sublist l → c.Sublist sorted) (i : Nat) :
    sorted.find? (fun x => x.place.position == i) = l.find? fun x => x.place.position == i := by
  have kept : (l.filter fun x => x.place.position == i).Sublist sorted := by
    refine stable _ (List.pairwise_of_forall_mem_list fun a ha b hb => ?_) List.filter_sublist
    simp only [List.mem_filter, beq_iff_eq] at ha hb
    omega
  have filtered := kept.filter fun x => x.place.position == i
  rw [List.filter_filter] at filtered
  simp only [Bool.and_self] at filtered
  have same := filtered.eq_of_length (perm.filter _).length_eq.symm
  rw [← List.head?_filter, ← List.head?_filter, same]

theorem find?_mergeSort (l : List Opening) (i : Nat) :
    (l.mergeSort fun a b => a.place.position ≤ b.place.position).find?
      (fun x => x.place.position == i) = l.find? fun x => x.place.position == i := by
  refine find?_of_stable (List.mergeSort_perm l _) (fun c ascending sub => ?_) i
  exact List.sublist_mergeSort (by simp only [decide_eq_true_eq]; omega)
    (by simp only [Bool.or_eq_true, decide_eq_true_eq]; omega) (ascending.imp (by simp)) sub

/-- The first opening at each position, by a sort that evaluates. -/
theorem firstAtEach_mergeSort (l : List Opening) :
    firstAtEach none (l.mergeSort fun a b => a.place.position ≤ b.place.position) =
      firstAtEach none (l.insertionSort fun a b => a.place.position ≤ b.place.position) := by
  have total : Std.Total fun a b : Opening => a.place.position ≤ b.place.position :=
    ⟨fun _ _ => Nat.le_total _ _⟩
  have trans : IsTrans Opening fun a b => a.place.position ≤ b.place.position :=
    ⟨fun _ _ _ => Nat.le_trans⟩
  have ascending : Ascending (l.insertionSort fun a b => a.place.position ≤ b.place.position) :=
    List.pairwise_insertionSort _ l
  have strict : (firstAtEach none _).Pairwise _ := pairwise_firstAtEach (ascending_mergeSort l)
  have strict' : (firstAtEach none _).Pairwise _ := pairwise_firstAtEach ascending
  have nodup : ∀ {l : List Opening}, l.Pairwise (fun a b => a.place.position < b.place.position) →
      l.Nodup := by
    refine fun h => h.imp ?_
    rintro a b lt rfl
    exact Nat.lt_irrefl _ lt
  refine List.Perm.eq_of_pairwise (fun a b _ _ lt lt' => absurd lt (Nat.lt_asymm lt')) strict strict'
    ((List.perm_ext_iff_of_nodup (nodup strict) (nodup strict')).mpr fun o => ?_)
  rw [mem_firstAtEach (ascending_mergeSort l) (fun _ h => by cases h), find?_mergeSort,
    mem_firstAtEach ascending (fun _ h => by cases h), find?_of_stable (List.perm_insertionSort _ l)
      fun c ascending sub => List.sublist_insertionSort ascending sub]

theorem mem_candidates_iff {limit : Int} {text : List Char} {o : Opening} :
    o ∈ candidates limit text ↔ (foundOpenings limit text).find?
      (fun x => x.place.position == o.place.position) = some o := by
  rw [candidates, mem_firstAtEach (ascending_mergeSort _) (fun _ h => by cases h), find?_mergeSort]
  simp

theorem mem_foundOpenings_of_mem_candidates {limit : Int} {text : List Char} {o : Opening}
    (ho : o ∈ candidates limit text) : o ∈ foundOpenings limit text :=
  List.mem_of_find?_eq_some (mem_candidates_iff.mp ho)

/-- Where an opening is found there is a candidate. -/
theorem exists_candidate {limit : Int} {text : List Char} {o : Opening}
    (ho : o ∈ foundOpenings limit text) : ∃ c ∈ candidates limit text, c.place = o.place := by
  obtain ⟨c, found⟩ := Option.isSome_iff_exists.mp
    (List.find?_isSome (p := fun x => x.place.position == o.place.position) |>.mpr
      ⟨o, ho, beq_self_eq_true o.place.position⟩)
  have same : c.place.position = o.place.position := by simpa using List.find?_some found
  refine ⟨c, mem_candidates_iff.mpr (by rw [same]; exact found), ?_⟩
  obtain ⟨_, _, _, opens⟩ := exists_opensQuery_of_mem_foundOpenings (List.mem_of_find?_eq_some found)
  obtain ⟨_, _, _, opens'⟩ := exists_opensQuery_of_mem_foundOpenings ho
  exact opens.place_eq opens' same

/-! ## Queries at openings -/

/-- The query nested at an opening. -/
def Opening.nested (o : Opening) : Nested :=
  match closing? 0 0 o.place.rest with
  | some n =>
    ⟨trim ((o.place.rest.take n).drop 1),
      if o.derived then (derivedAlias.matchAt? (o.place.skip (n + 1))).map fun m =>
        String.ofList (lowerChars (m.part .aliasName)) else none⟩
  | none => ⟨trim (o.place.rest.drop 1), none⟩

/-- How many characters an opening covers. -/
def Opening.extent (o : Opening) : Nat := (closing? 0 0 o.place.rest).getD o.place.rest.length

/-- A query goes to the parenthesis that closes it, or to the end of the text. -/
theorem Opening.exists_closing {o : Opening} {r : List Char} (rest : o.place.rest = '(' :: r) :
    ∃ inner back, r = inner ++ back ∧ (back = [] ∨ ∃ b, back = ')' :: b) ∧
      o.nested.body = trim inner ∧ o.extent = inner.length + 1 ∧ closing? 1 0 inner = none ∧
      (back ≠ [] → height inner = 0) := by
  rw [Opening.nested, Opening.extent, rest]
  cases closed : closing? 0 0 ('(' :: r) with
  | none =>
    refine ⟨r, [], (List.append_nil r).symm, .inl rfl, by simp, by simp,
      closing?_opening_eq_none_iff.mp closed, fun h => absurd rfl h⟩
  | some n =>
    obtain ⟨inner, b, rfl, rfl, unclosed, level⟩ := exists_of_closing?_opening closed
    exact ⟨inner, ')' :: b, rfl, .inr ⟨b, rfl⟩, by simp, rfl, unclosed, fun _ => level⟩

theorem select_ne_nil {w : List Char} (spelled : Spells "SELECT" w) : w ≠ [] :=
  ne_nil_of_spells (by decide) (List.mem_singleton.mpr rfl) spelled

/-- A query behind blanks is what is in front of its end without the blanks. -/
theorem exists_core {lead rest inner back : List Char} (split : lead ++ rest = inner ++ back)
    (blank : ∀ c ∈ lead, isBlank c = true) (starts : Spells "SELECT" (leading rest))
    (ends : back = [] ∨ ∃ b, back = ')' :: b) : ∃ trail, inner = lead ++ (trim inner ++ trail) ∧
      (∀ c ∈ trail, isBlank c = true) ∧ Spells "SELECT" (leading (trim inner)) := by
  have edge : back.head?.any isWord = false := by
    rcases ends with rfl | ⟨b, rfl⟩
    · rfl
    · exact (by decide : isWord ')' = false)
  obtain ⟨core, rfl, rfl⟩ : ∃ core, inner = lead ++ core ∧ rest = core ++ back := by
    rcases List.append_eq_append_iff.mp split with ⟨core, h, h'⟩ | ⟨e, rfl, rfl⟩
    · exact ⟨core, h, h'⟩
    · cases e with
      | nil => exact ⟨[], by simp, by simp⟩
      | cons c e =>
        rcases ends with ends | ⟨b, ends⟩
        · cases ends
        · obtain ⟨rfl, -⟩ := List.cons.inj ends
          exact (not_mem_of_blank blank (by decide : isBlank ')' = false) (by simp)).elim
  rw [leading_append edge] at starts
  obtain ⟨more, trail, whole, blank_more, blank_trail⟩ := exists_trim core
  have none : more = [] := by
    cases more with
    | nil => rfl
    | cons c more =>
      refine absurd ?_ (select_ne_nil starts)
      rw [whole, leading, List.cons_append, List.takeWhile_cons_of_neg]
      simpa using isWord_of_isBlank (blank_more c (List.mem_cons_self ..))
  rw [none, List.nil_append] at whole
  rw [trim_blank_append blank]
  have behind := head?_blank_append blank_trail (s := []) rfl
  rw [List.append_nil] at behind
  refine ⟨trail, by rw [← whole], blank_trail, ?_⟩
  rwa [whole, leading_append behind] at starts

/-- The query nested at an opening is an enclosure of the text; all parentheses up to where the
query ends open in it. -/
theorem exists_enclosure {text : List Char} {o : Opening} {outside lead rest : List Char}
    (h : OpensQuery text o.place outside lead rest) : ∃ e : Enclosure text,
      e.part = o.nested.body ∧ e.front.length = o.place.position + (lead.length + 1) ∧
      ∀ a b, text = a ++ '(' :: b → o.place.position < a.length →
        a.length < o.place.position + o.extent → ∃ a' b', e.part = a' ++ '(' :: b' ∧
          a = e.front ++ a' := by
  have place : o.place.rest = '(' :: (lead ++ rest) := by rw [h.place]; rfl
  have position : o.place.position = outside.length := by rw [h.place]; rfl
  obtain ⟨inner, back, split, ends, body, extent, unclosed, level⟩ := o.exists_closing place
  obtain ⟨trail, whole, blank, starts⟩ := exists_core split h.blank h.starts ends
  generalize trim inner = part at body whole starts
  subst whole
  have closing : ClosingTail back := by
    rcases ends with rfl | ⟨b, rfl⟩
    · exact .ended
    · exact .closed b
  have split' : text = (outside ++ '(' :: lead) ++ (part ++ (trail ++ back)) := by
    rw [h.split, split]
    simp only [List.append_assoc, List.cons_append]
  have edge : ((outside ++ ['(']) ++ lead).getLast?.any isWord = false :=
    getLast?_append_blank h.blank (by simpa using (by decide : isWord '(' = false))
  rw [List.append_assoc, List.singleton_append] at edge
  rw [closing?_append, Option.or_eq_none_iff, height_of_blank h.blank, Int.add_zero,
    @closing?_eq_none_iff _ (0 + _) _, closing?_append, Option.or_eq_none_iff] at unclosed
  rw [height_append, height_append, height_of_blank h.blank, height_of_blank blank, Int.zero_add,
    Int.add_zero] at level
  have closed : ')' ∈ trail ++ back → closing? 1 0 part = none ∧ height part = 0 := by
    intro there
    refine ⟨unclosed.2.1, level fun none => ?_⟩
    rw [none, List.append_nil] at there
    exact not_mem_of_blank blank (by decide) there
  refine ⟨{ front := outside ++ '(' :: lead, part, tail := trail ++ back, split := split', edge,
            closing := closingTail_append blank closing, closed, outside, lead, front_eq := rfl,
            blank := h.blank, starts, unclosed := unclosed.2.1 }, body.symm, ?_, ?_⟩
  · rw [position, List.length_append, List.length_cons]
  · intro a b there before within
    rw [split', List.append_assoc] at there
    obtain ⟨a₁, behind, there₁⟩ := exists_append_of_le there (by omega)
    cases a₁ with
    | nil =>
      rw [behind, List.append_nil] at before
      omega
    | cons c a₁ =>
      obtain ⟨rfl, there₂⟩ := List.cons.inj there₁
      obtain ⟨a₂, rfl, there₃⟩ := exists_append_of_not_mem there₂ (not_mem_of_blank h.blank (by decide))
      have inside : a₂.length < part.length := by
        refine Nat.lt_of_not_le fun le => ?_
        obtain ⟨a₃, rfl, there₄⟩ := exists_append_of_le there₃ le
        obtain ⟨a₄, rfl, -⟩ := exists_append_of_not_mem there₄ (not_mem_of_blank blank (by decide))
        rw [behind] at within
        simp only [List.length_append, List.length_cons] at within extent
        omega
      obtain ⟨b', inner, -⟩ := exists_append_of_lt there₃ inside
      exact ⟨a₂, b', inner, by simp [behind]⟩

/-- The text of a query depends on its place only. -/
theorem Opening.body_congr {o o' : Opening} (same : o.place = o'.place) :
    o.nested.body = o'.nested.body := by
  rw [Opening.nested, Opening.nested, same]
  cases closing? 0 0 o'.place.rest <;> rfl

/-- A query in an excerpt has the text that it has in the whole text. -/
theorem Excerpt.body_eq {text : List Char} (e : Excerpt text) {a b : List Char}
    (place : e.part = a ++ '(' :: b) {o o' : Opening} (outer : o.place.rest = '(' :: b ++ e.tail)
    (inner : o'.place.rest = '(' :: b) : o.nested.body = o'.nested.body := by
  rw [Opening.nested, Opening.nested, outer, inner, e.closing?_eq place]
  cases closed : closing? 0 0 ('(' :: b) with
  | some n => simp only [List.take_append_of_le_length (Nat.le_of_lt (lt_of_closing? closed))]
  | none =>
    have blank := Excerpt.blank_of_not_mem e.closing (e.not_mem_of_closing?_eq_none place closed)
    simp only [List.cons_append, List.drop_succ_cons, List.drop_zero, trim_append_of_blank blank]

/-! ## Searches in front of a query -/

namespace Enclosure

variable {text : List Char} (e : Enclosure text)

/-- Behind the parenthesis of a query there are only blanks in front of it. -/
theorem blank_of_front {a b : List Char} (split : e.front = a ++ b) (flat : '(' ∉ b) :
    ∀ c ∈ b, isBlank c = true := by
  have whole : a ++ b = e.outside ++ '(' :: e.lead := split.symm.trans e.front_eq
  have behind : e.outside.length < a.length := by
    refine Nat.lt_of_not_le fun le => flat ?_
    obtain ⟨a', -, rfl⟩ := exists_append_of_le whole le
    simp
  obtain ⟨b', -, lead⟩ := exists_append_of_lt whole behind
  exact fun c hc => e.blank c (lead ▸ List.mem_append_right _ hc)

/-- A match that starts in front of a query starts in front of its parenthesis. -/
theorem mem_of_starts {p : Pattern Part}
    (starts : ∀ here, p.outcomes here ≠ [] → here.rest.head?.any isBlank = false)
    {a b : List Char} (split : e.front = a ++ b) (nonempty : b ≠ [])
    (some : p.outcomes (.between a (b ++ (e.part ++ e.tail))) ≠ []) : '(' ∈ b := by
  refine Decidable.byContradiction fun flat => ?_
  have blank := e.blank_of_front split flat
  have first := starts _ some
  obtain ⟨c, b, rfl⟩ := List.exists_cons_of_ne_nil nonempty
  have outside : isBlank c = false := first
  rw [blank c (List.mem_cons_self ..)] at outside
  cases outside

/-- What takes no opening parenthesis does not go into the query. -/
theorem stopsIn_of_flat {p : Pattern Part} (flat : p.takes '(' = false)
    (words : p.wordStarts.1 = true) : StopsIn p e.front (e.part ++ e.tail) := by
  intro a b split nonempty m found
  rw [matchAt?_eq_head?] at found
  obtain ⟨o, ho, rfl⟩ := Option.map_eq_some_iff.mp found
  replace ho := List.mem_of_head? ho
  obtain ⟨w, advances, all⟩ := exists_advances ho
  have absent := not_mem_of_takes flat all
  obtain ⟨b₁, b₂, rfl⟩ := List.append_of_mem
    (e.mem_of_starts (not_isBlank_of_wordStarts words) split nonempty (List.ne_nil_of_mem ho))
  have rest : w ++ o.1.rest = b₁ ++ '(' :: (b₂ ++ (e.part ++ e.tail)) := by
    rw [← advances.rest]
    simp [Place.between]
  have before : w.length ≤ b₁.length := by
    refine Nat.le_of_not_lt fun lt => absent ?_
    obtain ⟨b', rfl, -⟩ := exists_append_of_lt rest lt
    simp
  have position : o.1.position = a.length + w.length := advances.position
  show o.1.position ≤ e.front.length
  rw [split, List.length_append, List.length_append]
  omega

/-- An opening in front of a query ends where the query starts, or before. -/
theorem stopsIn_of_opening {p : Pattern Part} (h : QueryOpening p) :
    StopsIn p e.front (e.part ++ e.tail) := by
  intro a b split nonempty m found
  obtain ⟨head, lead, rest, leads⟩ := h.exists_leads found
  have some : p.outcomes (.between a (b ++ (e.part ++ e.tail))) ≠ [] := by
    intro none
    rw [matchAt?_eq_none none] at found
    cases found
  obtain ⟨b₁, b₂, rfl⟩ := List.append_of_mem (e.mem_of_starts h.starts split nonempty some)
  have whole : (b₁ ++ '(' :: b₂) ++ (e.part ++ e.tail) = head ++ '(' :: (lead ++ rest) := leads.split
  have before : head.length ≤ b₁.length := by
    refine Nat.le_of_not_lt fun lt => leads.flat ?_
    have rest' := whole.symm
    rw [List.append_assoc, List.cons_append] at rest'
    obtain ⟨b', rfl, -⟩ := exists_append_of_lt rest' lt
    simp
  obtain ⟨b₃, behind, inner⟩ := exists_append_of_lt whole
    (by rw [List.length_append, List.length_cons]; omega)
  obtain ⟨c, part, first, word⟩ := e.exists_first
  have blanks : lead.length ≤ b₃.length := by
    refine Nat.le_of_not_lt fun lt => ?_
    rw [first, List.cons_append] at inner
    obtain ⟨b', rfl, -⟩ := exists_append_of_lt inner lt
    have blank := leads.blank c (by simp)
    rw [isWord_of_isBlank blank] at word
    cases word
  have stop : m.stop.position = a.length + (head.length + 1 + lead.length) := leads.stop
  rw [split, behind, List.length_append, List.length_append, List.length_cons]
  omega

/-- An opening in a query is found in the query alone, with as many matches. -/
theorem candidate_of_mem {limit : Int} {o : Opening} (ho : o ∈ foundOpenings limit text)
    {a b : List Char} (place : e.part = a ++ '(' :: b)
    (position : o.place.position = e.front.length + a.length) :
    ∃ c ∈ candidates limit e.part, c.nested.body = o.nested.body := by
  obtain ⟨p, derived, opening, ho, listed⟩ := mem_foundOpenings ho
  obtain ⟨m, hm, s, kept, rfl⟩ := mem_openings.mp ho
  obtain ⟨early, mid, late, split, all, before, behind⟩ :=
    opening.contained.findAll_excerpt e.edge e.closing (e.stopsIn_of_opening opening)
  rw [← e.split] at split
  rw [bounded_fst] at hm
  obtain ⟨x, y, text_eq, -, found⟩ := exists_of_mem_findAll (List.mem_of_mem_take hm)
  obtain ⟨head, lead, rest, leads⟩ := opening.exists_leads found
  obtain ⟨s', kept', opens⟩ := leads.opensQuery
  obtain rfl : s = s' := Option.some.inj (kept.symm.trans kept')
  have start : m.start.position = x.length := by rw [start_of_matchAt? found]; rfl
  have stop : m.stop.position = x.length + (head.length + 1 + lead.length) := leads.stop
  have opened : s.start.position = x.length + head.length := by
    rw [opens.place]
    exact List.length_append
  have position : s.start.position = e.front.length + a.length := position
  have length : e.part.length = a.length + (b.length + 1) := by
    rw [place, List.length_append, List.length_cons]
  -- The match starts in the query, so it is one of those that are found in the query alone.
  have inside : m ∈ mid.take limit.toNat := by
    rw [split] at hm
    refine mem_take_of_mem_middle hm (fun hm => ?_) fun hm => ?_
    · have := before m hm
      omega
    · have := behind m hm
      omega
  obtain ⟨m', hm', both⟩ := (exists_of_forall₂ (List.forall₂_take limit.toNat all)).1 m inside
  have spans := get?_embeds Part.opening both.kept
  rw [kept] at spans
  cases kept' : Assoc.get? Part.opening m'.kept with
  | none => rw [kept'] at spans; cases spans
  | some s' =>
    rw [kept'] at spans
    cases spans with
    | some span =>
      have ho' := listed limit e.part ⟨s'.start, derived⟩ (mem_openings.mpr ⟨m', hm', s', kept', rfl⟩)
      obtain ⟨c, hc, same⟩ := exists_candidate ho'
      obtain ⟨outside', lead', rest', opens'⟩ := exists_opensQuery_of_mem_foundOpenings ho'
      have inner : s'.start.rest = '(' :: (lead' ++ rest') := congrArg Place.rest opens'.place
      refine ⟨c, hc, (Opening.body_congr same).trans (e.body_eq opens'.split ?_ inner).symm⟩
      exact span.2.2.rest.trans (congrArg (· ++ e.tail) inner)

end Enclosure

/-! ## Outermost openings -/

theorem outermost_cons (covered : Nat) (o : Opening) (rest : List Opening) :
    outermost covered (o :: rest) = if o.place.position < covered then outermost covered rest
      else o.nested :: outermost (o.place.position + o.extent) rest := by
  rw [outermost, Opening.nested, Opening.extent]
  split
  · rfl
  · cases closing? 0 0 o.place.rest <;> rfl

theorem exists_of_mem_outermost {covered : Nat} {l : List Opening} {n : Nested}
    (hn : n ∈ outermost covered l) : ∃ o ∈ l, n = o.nested := by
  induction l generalizing covered with
  | nil => cases hn
  | cons x rest ih =>
    rw [outermost_cons] at hn
    split at hn
    · obtain ⟨o, ho, rfl⟩ := ih hn
      exact ⟨o, List.mem_cons_of_mem _ ho, rfl⟩
    · rcases List.mem_cons.mp hn with rfl | hn
      · exact ⟨x, List.mem_cons_self .., rfl⟩
      · obtain ⟨o, ho, rfl⟩ := ih hn
        exact ⟨o, List.mem_cons_of_mem _ ho, rfl⟩

/-- An opening is an outermost one, or an outermost one covers it. -/
theorem exists_covering {covered : Nat} {l : List Opening}
    (sorted : l.Pairwise fun a b => a.place.position < b.place.position) {o : Opening} (ho : o ∈ l)
    (free : covered ≤ o.place.position) : ∃ q ∈ l, q.nested ∈ outermost covered l ∧
      (q = o ∨ q.place.position < o.place.position ∧
        o.place.position < q.place.position + q.extent) := by
  induction l generalizing covered with
  | nil => cases ho
  | cons x rest ih =>
    obtain ⟨first, sorted⟩ := List.pairwise_cons.mp sorted
    rw [outermost_cons]
    split
    · rename_i skipped
      rcases List.mem_cons.mp ho with rfl | ho
      · omega
      · obtain ⟨q, hq, listed, covers⟩ := ih sorted ho free
        exact ⟨q, List.mem_cons_of_mem _ hq, listed, covers⟩
    · rcases List.mem_cons.mp ho with rfl | ho
      · exact ⟨o, List.mem_cons_self .., List.mem_cons_self .., .inl rfl⟩
      · by_cases inside : o.place.position < x.place.position + x.extent
        · exact ⟨x, List.mem_cons_self .., List.mem_cons_self .., .inr ⟨first o ho, inside⟩⟩
        · obtain ⟨q, hq, listed, covers⟩ := ih sorted ho (Nat.le_of_not_lt inside)
          exact ⟨q, List.mem_cons_of_mem _ hq, List.mem_cons_of_mem _ listed, covers⟩

end QueryWorkbench.Analysis
