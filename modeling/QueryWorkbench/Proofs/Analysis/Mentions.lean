/-
QueryWorkbench.Proofs.Analysis.Mentions — which tables a scan mentions under which limits.

A text mentions the tables of its FROMs and joins, and those of the queries in its parentheses among
them (`Enclosure.mentions`). So a scan that is not cut short mentions what any other scan of the
text does (`mem_scan_of_uncut`). A scan that leaves no query out does so too if it uses at least as
many matches (`mem_scan_of_shallow`): what another scan follows is an opening in the query of one
that this scan follows, and found there as well. And with the same matches the same queries are
found on every level, so going deeper only adds tables (`mem_scan_of_deeper`).
-/
import QueryWorkbench.Proofs.Analysis.Ceilings
import QueryWorkbench.Proofs.Analysis.Nesting

namespace QueryWorkbench.Analysis

open Pattern Text

/-! ## Tables of one text -/

/-- An event that mentions a table. -/
def Event.IsMention : Event → Prop
  | .mentioned .. => True
  | _ => False

/-- A table of a text by any number of matches. -/
def Mentions (text : List Char) (e : Event) : Prop :=
  (∃ m ∈ fromTable.findAll text, ¬ isCall text m.start.position ∧ e ∈ fromTables m) ∨
    ∃ m ∈ joinTable.findAll text, e = mention m

/-- A pass that is cut short mentions no table by that. -/
theorem not_mem_bounded {limit : Int} {p : Pattern Part} {text : List Char} {e : Event}
    (mentioned : e.IsMention) : e ∉ (bounded limit p text).2 := by
  intro he
  rw [bounded] at he
  simp only at he
  split at he
  · rw [List.mem_singleton.mp he] at mentioned
    exact mentioned
  · cases he

theorem mem_surface {limit : Int} {text : List Char} {e : Event} (mentioned : e.IsMention) :
    e ∈ surface limit text ↔
      (∃ m ∈ (fromTable.findAll text).take limit.toNat, ¬ isCall text m.start.position ∧
        e ∈ fromTables m) ∨
      ∃ m ∈ (joinTable.findAll text).take limit.toNat, e = mention m := by
  have calls : ∀ m ∈ (fromTable.findAll text).take limit.toNat, (callPositions text
      (((fromTable.findAll text).take limit.toNat).map fun m => (m.start.position : Int))).contains
        (m.start.position : Int) = true ↔ isCall text m.start.position := by
    intro m hm
    obtain ⟨a, b, split, nonempty, found⟩ := exists_of_mem_findAll (List.mem_of_mem_take hm)
    have within : m.start.position < text.length := by
      rw [start_of_matchAt? found, split, List.length_append]
      exact Nat.lt_add_of_pos_right (List.length_pos_iff.mpr nonempty)
    rw [List.contains_iff_mem, mem_callPositions]
    exact ⟨fun h => h.2.2, fun h => ⟨List.mem_map_of_mem hm, within, h⟩⟩
  simp only [surface, List.mem_append, not_mem_bounded mentioned, false_or, or_false, List.mem_flatMap, List.mem_filter,
    List.mem_map, bounded_fst, Bool.not_eq_true', and_assoc]
  refine or_congr (exists_congr fun m => and_congr_right fun hm => ?_) (exists_congr fun m => ?_)
  · rw [← calls m hm, Bool.not_eq_true]
  · rw [eq_comm]

theorem mentions_of_mem_surface {limit : Int} {text : List Char} {e : Event}
    (mentioned : e.IsMention) (he : e ∈ surface limit text) : Mentions text e := by
  rcases (mem_surface mentioned).mp he with ⟨m, hm, rest⟩ | ⟨m, hm, rest⟩
  · exact .inl ⟨m, List.mem_of_mem_take hm, rest⟩
  · exact .inr ⟨m, List.mem_of_mem_take hm, rest⟩

/-- A scan of one text that is not cut short uses all its tables. -/
theorem mem_surface_of_mentions {limit : Int} {text : List Char} {e : Event}
    (mentioned : e.IsMention) (uncut : .cutShort ∉ surface limit text) (h : Mentions text e) :
    e ∈ surface limit text := by
  have whole : ∀ p, .cutShort ∉ (bounded limit p text).2 →
      (p.findAll text).take limit.toNat = p.findAll text := by
    intro p uncut
    refine List.take_of_length_le (Nat.le_of_not_lt fun more => uncut ?_)
    rw [bounded, if_pos more]
    exact List.mem_singleton.mpr rfl
  simp only [surface, List.mem_append, not_or] at uncut
  rw [mem_surface mentioned, whole _ uncut.1.1.1, whole _ uncut.1.2]
  exact h

/-- A scan of one text comes across the tables of any scan with fewer matches. -/
theorem mem_surface_of_le {limit limit' : Int} (le : limit ≤ limit') {text : List Char} {e : Event}
    (mentioned : e.IsMention) (he : e ∈ surface limit text) : e ∈ surface limit' text := by
  have prefixes : ∀ {l : List (Match Part)}, ∀ m ∈ l.take limit.toNat, m ∈ l.take limit'.toNat :=
    fun m hm => (List.take_subset_take_left _ (Int.toNat_le_toNat le)) hm
  rw [mem_surface mentioned] at he ⊢
  exact he.imp (fun ⟨m, hm, rest⟩ => ⟨m, prefixes m hm, rest⟩)
    fun ⟨m, hm, rest⟩ => ⟨m, prefixes m hm, rest⟩

/-! ## Tables of a query in parentheses -/

theorem contained_fromTable : Contained fromTable := ⟨by decide, by decide, by decide⟩

theorem contained_joinTable : Contained joinTable := ⟨by decide, by decide, by decide⟩

theorem contained_commaTable : Contained commaTable := ⟨by decide, by decide, by decide⟩

section

variable {shift : Nat} {tail : List Char} {m m' : Match Part}

theorem mention_embeds (h : MatchEmbeds shift tail m m') : mention m = mention m' := by
  simp only [mention, partText?, partText, h.part?_eq, h.part_eq]

/-- A further table takes its comma at least. -/
theorem length_lt_of_commaTable {here : Place} (h : commaTable.matchAt? here = some m) :
    m.stop.rest.length < here.rest.length := by
  rw [matchAt?_eq_head?] at h
  obtain ⟨o, ho, rfl⟩ := Option.map_eq_some_iff.mp h
  obtain ⟨o₁, h₁, o₂, h₂, rfl⟩ := mem_outcomes_seq.mp (List.mem_of_head? ho)
  obtain ⟨o₃, h₃, o₄, h₄, rfl⟩ := mem_outcomes_seq.mp h₂
  obtain ⟨a, before⟩ := exists_append_of_mem_outcomes h₁
  obtain ⟨c, rest, comma, -, rfl⟩ := mem_outcomes_one h₃
  obtain ⟨b, behind⟩ := exists_append_of_mem_outcomes h₄
  have behind : rest = b ++ o₄.1.rest := behind
  rw [before, comma, behind]
  simp only [List.length_append, List.length_cons]
  omega

theorem commaTables_eq_nil {fuel : Nat} {here : Place} (none : commaTable.matchAt? here = none) :
    commaTables fuel here = [] := by
  cases fuel with
  | zero => rfl
  | succ fuel => rw [commaTables, none]

/-- The tables after commas are those of the whole text, for any amount that is enough. -/
theorem commaTables_embeds (closing : ClosingTail tail) {outer inner : Place}
    (embeds : Place.Embeds shift tail outer inner) {fuel fuel' : Nat}
    (enough : outer.rest.length ≤ fuel) (enough' : inner.rest.length ≤ fuel') :
    commaTables fuel outer = commaTables fuel' inner := by
  induction fuel' generalizing fuel outer inner with
  | zero =>
    rcases contained_commaTable.matchAt?_embeds closing embeds with
      ⟨none, -⟩ | ⟨m, m', -, found', -⟩
    · exact commaTables_eq_nil none
    · have := length_lt_of_commaTable found'
      omega
  | succ fuel' ih =>
    rcases contained_commaTable.matchAt?_embeds closing embeds with
      ⟨none, none'⟩ | ⟨m, m', found, found', both⟩
    · rw [commaTables_eq_nil none, commaTables_eq_nil none']
    · have shorter := length_lt_of_commaTable found
      have shorter' := length_lt_of_commaTable found'
      obtain ⟨fuel, rfl⟩ : ∃ k, fuel = k + 1 := ⟨fuel - 1, by omega⟩
      rw [commaTables, commaTables, found, found']
      simp only
      rw [mention_embeds both, ih both.stop (by omega) (by omega)]

theorem fromTables_embeds (closing : ClosingTail tail) (h : MatchEmbeds shift tail m m') :
    fromTables m = fromTables m' := by
  rw [fromTables, fromTables, mention_embeds h,
    commaTables_embeds closing h.stop (Nat.le_refl _) (Nat.le_refl _)]

end

namespace Enclosure

variable {text : List Char} (e : Enclosure text)

/-- A query mentions what it mentions in the whole text. -/
theorem mentions {ev : Event} (h : Mentions e.part ev) : Mentions text ev := by
  have find : ∀ {p : Pattern Part}, Contained p → p.takes '(' = false → p.wordStarts.1 = true →
      ∀ m' ∈ p.findAll e.part, ∃ m ∈ p.findAll text, MatchEmbeds e.front.length e.tail m m' := by
    intro p contained flat words m' hm'
    obtain ⟨early, mid, late, split, all, -⟩ := contained.findAll_excerpt e.edge e.closing
      (e.stopsIn_of_flat flat words)
    obtain ⟨m, hm, both⟩ := (exists_of_forall₂ all).2 m' hm'
    rw [← e.split] at split
    exact ⟨m, by simp [split, hm], both⟩
  rcases h with ⟨m', hm', called, he⟩ | ⟨m', hm', rfl⟩
  · obtain ⟨m, hm, both⟩ := find contained_fromTable (by decide) (by decide) m' hm'
    refine .inl ⟨m, hm, ?_, (fromTables_embeds e.closing both).symm ▸ he⟩
    obtain ⟨a, b, place, -, found⟩ := exists_of_mem_findAll hm'
    rw [both.start.position, start_of_matchAt? found, Nat.add_comm]
    rw [start_of_matchAt? found] at called
    exact mt (e.isCall_iff place).mp called
  · obtain ⟨m, hm, both⟩ := find contained_joinTable (by decide) (by decide) m' hm'
    exact .inr ⟨m, hm, (mention_embeds both).symm⟩

end Enclosure

/-! ## Scans -/

section

variable {limit limit' : Int} {levels levels' : Nat} {text : List Char} {e : Event}

/-- A mention of a scan is one of the text, or of a query that the scan follows. -/
theorem mention_mem_scan (mentioned : e.IsMention) : e ∈ scan limit levels text ↔
    e ∈ surface limit text ∨
      ∃ k, levels = k + 1 ∧ ∃ n ∈ (nestedQueries limit text).1, e ∈ scan limit k n.body := by
  have uncut : e ∉ (nestedQueries limit text).2 := by
    simp [nestedQueries, not_mem_bounded mentioned]
  have undefined : ∀ n : Nested, e ∉ n.definition := by
    intro n he
    rw [Nested.definition, Option.mem_toList, Option.map_eq_some_iff] at he
    obtain ⟨name, -, rfl⟩ := he
    exact mentioned
  have deep : e ≠ .tooDeep := by
    rintro rfl
    exact mentioned
  rw [mem_scan]
  cases levels <;> simp [scanNested, uncut, undefined, deep]

/-- The queries nested in a text are enclosures. -/
theorem exists_enclosure_of_mem {n : Nested} (hn : n ∈ (nestedQueries limit text).1) :
    ∃ e : Enclosure text, e.part = n.body := by
  rw [nestedQueries_fst] at hn
  obtain ⟨o, ho, rfl⟩ := exists_of_mem_outermost hn
  obtain ⟨_, _, _, opens⟩ :=
    exists_opensQuery_of_mem_foundOpenings (mem_foundOpenings_of_mem_candidates ho)
  obtain ⟨e, part, -⟩ := exists_enclosure opens
  exact ⟨e, part⟩

/-- Whatever a scan mentions is mentioned in the text. -/
theorem mentions_of_mem_scan (mentioned : e.IsMention) (he : e ∈ scan limit levels text) :
    Mentions text e := by
  induction levels generalizing text with
  | zero =>
    rcases (mention_mem_scan mentioned).mp he with he | ⟨k, hk, -⟩
    · exact mentions_of_mem_surface mentioned he
    · cases hk
  | succ levels ih =>
    rcases (mention_mem_scan mentioned).mp he with he | ⟨k, hk, n, hn, he⟩
    · exact mentions_of_mem_surface mentioned he
    · cases hk
      obtain ⟨enclosure, part⟩ := exists_enclosure_of_mem hn
      exact enclosure.mentions (part ▸ ih he)

/-- A scan that is not cut short mentions what any scan of the text does. -/
theorem mem_scan_of_uncut (uncut : .cutShort ∉ scan limit' levels' text) (mentioned : e.IsMention)
    (he : e ∈ scan limit levels text) : e ∈ scan limit' levels' text := by
  have surface_uncut : .cutShort ∉ surface limit' text := fun cut => uncut (mem_scan.mpr (.inl cut))
  exact mem_scan.mpr (.inl
    (mem_surface_of_mentions mentioned surface_uncut (mentions_of_mem_scan mentioned he)))

/-- A scan that goes deeper with as many matches mentions more. -/
theorem mem_scan_of_deeper (mentioned : e.IsMention) (deep : levels ≤ levels')
    (he : e ∈ scan limit levels text) : e ∈ scan limit levels' text := by
  induction levels generalizing levels' text with
  | zero =>
    rcases (mention_mem_scan mentioned).mp he with he | ⟨k, hk, -⟩
    · exact mem_scan.mpr (.inl he)
    · cases hk
  | succ levels ih =>
    rcases (mention_mem_scan mentioned).mp he with he | ⟨k, hk, n, hn, he⟩
    · exact mem_scan.mpr (.inl he)
    · obtain rfl := Nat.succ.inj hk
      obtain ⟨k', rfl⟩ : ∃ k', levels' = k' + 1 := ⟨levels' - 1, by omega⟩
      exact (mention_mem_scan mentioned).mpr
        (.inr ⟨k', rfl, n, hn, ih (Nat.le_of_succ_le_succ deep) he⟩)

/-- With more matches more openings are found. -/
theorem mem_foundOpenings_of_le (le : limit ≤ limit') {o : Opening}
    (ho : o ∈ foundOpenings limit text) : o ∈ foundOpenings limit' text := by
  obtain ⟨p, derived, -, ho, listed⟩ := mem_foundOpenings ho
  obtain ⟨m, hm, kept⟩ := mem_openings.mp ho
  rw [bounded_fst] at hm
  refine listed limit' text o (mem_openings.mpr ⟨m, ?_, kept⟩)
  exact List.take_subset_take_left _ (Int.toNat_le_toNat le) hm

/-- A scan that leaves no query out mentions what a scan with fewer matches mentions, in the text
and in the query of each of its openings. -/
theorem mem_scan_of_shallow (le : limit ≤ limit') (mentioned : e.IsMention)
    (shallow : .tooDeep ∉ scan limit' levels' text) :
    (∀ o ∈ foundOpenings limit' text, ∀ levels, e ∈ scan limit levels o.nested.body →
      e ∈ scan limit' levels' text) ∧
    ∀ levels, e ∈ scan limit levels text → e ∈ scan limit' levels' text := by
  induction levels' using Nat.strongRecOn generalizing text with
  | ind levels' ih =>
    have opened : ∀ o ∈ foundOpenings limit' text, ∀ levels, e ∈ scan limit levels o.nested.body →
        e ∈ scan limit' levels' text := by
      intro o ho levels he
      obtain ⟨c, hc, same⟩ := exists_candidate ho
      obtain ⟨q, hq, followed, covers⟩ := exists_covering
        (pairwise_firstAtEach (ascending_mergeSort _)) hc (Nat.zero_le _)
      obtain ⟨k, rfl, more⟩ := exists_pred_of_shallow shallow followed
      obtain ⟨inner, whole⟩ := ih k (Nat.lt_succ_self k) (mt (more _) shallow)
      refine more e ?_
      rw [← Opening.body_congr same] at he
      rcases covers with rfl | ⟨behind, before⟩
      · exact whole levels he
      · have found := mem_foundOpenings_of_mem_candidates hc
        obtain ⟨_, _, _, opens⟩ := exists_opensQuery_of_mem_foundOpenings
          (mem_foundOpenings_of_mem_candidates hq)
        obtain ⟨outside, _, _, opens'⟩ := exists_opensQuery_of_mem_foundOpenings found
        obtain ⟨enclosure, part, -, inside⟩ := exists_enclosure opens
        have position : c.place.position = outside.length := congrArg Place.position opens'.place
        rw [position] at behind before
        obtain ⟨a, b, place, front⟩ := inside _ _ opens'.split behind before
        rw [front, List.length_append] at position
        obtain ⟨c', hc', body⟩ := enclosure.candidate_of_mem found place position
        rw [part] at hc'
        exact inner c' (mem_foundOpenings_of_mem_candidates hc') levels (body ▸ he)
    refine ⟨opened, fun levels he => ?_⟩
    rcases (mention_mem_scan mentioned).mp he with he | ⟨k, -, n, hn, he⟩
    · exact mem_scan.mpr (.inl (mem_surface_of_le le mentioned he))
    · rw [nestedQueries_fst] at hn
      obtain ⟨o, ho, rfl⟩ := exists_of_mem_outermost hn
      exact opened o (mem_foundOpenings_of_le le (mem_foundOpenings_of_mem_candidates ho)) k he

end

end QueryWorkbench.Analysis
