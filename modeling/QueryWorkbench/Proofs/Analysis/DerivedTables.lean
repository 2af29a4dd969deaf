/-
QueryWorkbench.Proofs.Analysis.DerivedTables — the derived tables that a scan comes across.

A `DerivedTable` is a query in the place of a table somewhere in a text, closed and with an alias.
In a part of the text it is a derived table of the same name (`Excerpt.exists_derivedTable`), unless
its keyword stands in front of the part; a part behind anything but FROM and JOIN is `Sealed`
against that. A scan that leaves out no query and cuts short no pass comes across the names of all
derived tables of the text, at any depth (`DerivedTable.defined_mem_scan`).
-/
import QueryWorkbench.Proofs.Analysis.Ceilings
import QueryWorkbench.Proofs.Analysis.Mentions

namespace QueryWorkbench.Analysis

open Pattern Text

/-! ## Derived tables of a text -/

/-- The words in front of a derived table. -/
def derivedWords : List String := ["FROM", "JOIN"]

/-- A derived table is a word and blanks in front of a query in parentheses. -/
theorem exists_leads_derivedOpening {here : Place} {m : Match Part}
    (found : derivedOpening.matchAt? here = some m) : ∃ k ∈ derivedWords, ∃ w blanks lead rest,
      Spells k w ∧ (∀ c ∈ blanks, isBlank c = true) ∧ here.before.any isWord = false ∧
        Leads here (m.stop, m.kept) (w ++ blanks) lead rest := by
  rw [matchAt?_eq_head?] at found
  obtain ⟨o, ho, rfl⟩ := Option.map_eq_some_iff.mp found
  obtain ⟨o₁, h₁, o₂, h₂, rfl⟩ := mem_outcomes_seq.mp (List.mem_of_head? ho)
  obtain ⟨edge, rfl⟩ := mem_outcomes_wordEdge h₁
  obtain ⟨o₃, h₃, o₄, h₄, rfl⟩ := mem_outcomes_seq.mp h₂
  obtain ⟨k, hk, h₃⟩ := exists_of_mem_outcomes_anyKeyword h₃
  obtain ⟨w, r, split, spelled, rfl⟩ := mem_outcomes_keyword h₃
  obtain ⟨o₅, h₅, o₆, h₆, rfl⟩ := mem_outcomes_seq.mp h₄
  obtain ⟨blanks, r', split', blank, rfl⟩ := mem_outcomes_greedy h₅
  obtain ⟨lead, rest, leads⟩ := exists_leads_scalarOpening h₆
  have word := isWord_of_spells (by decide) hk spelled
  have w_ne := ne_nil_of_spells (by decide) hk spelled
  have flat_w : '(' ∉ w := fun hw => absurd (word _ hw) (by decide)
  have flat_blanks : '(' ∉ blanks := not_mem_of_blank blank (by decide)
  have outside : here.before.any isWord = false := by
    obtain ⟨c, w, rfl⟩ := List.exists_cons_of_ne_nil w_ne
    have first : isWord c = true := word c (List.mem_cons_self ..)
    have split : here.rest = c :: (w ++ r) := split
    simpa [Place.atWordEdge, split, first] using edge
  have behind_word : Advances w here ⟨w.getLast?.or here.before, here.position + w.length, r⟩ :=
    ⟨split, rfl, rfl⟩
  have whole := (leads.behind ⟨split', rfl, rfl⟩ flat_blanks).behind behind_word flat_w
  refine ⟨k, hk, w, blanks, lead, rest, spelled, blank, outside, ?_⟩
  simpa using whole

/-- A query in the place of a table, with its closing parenthesis and an alias behind it. -/
structure DerivedTable (text : List Char) where
  front : List Char
  back : List Char
  split : text = front ++ back
  opening : Match Part
  opens : derivedOpening.matchAt? (.between front back) = some opening
  paren : Span
  kept : Assoc.get? Part.opening opening.kept = some paren
  length : Nat
  closes : closing? 0 0 paren.start.rest = some length
  named : Match Part
  aliased : derivedAlias.matchAt? (paren.start.skip (length + 1)) = some named

namespace DerivedTable

variable {text : List Char} (d : DerivedTable text)

/-- The name that a derived table goes by. -/
def name : String := partText d.named .aliasName

/-- What stands around the parenthesis of a derived table. -/
theorem exists_shape : ∃ k ∈ derivedWords, ∃ w blanks lead rest,
    Spells k w ∧ (∀ c ∈ blanks, isBlank c = true) ∧ d.front.getLast?.any isWord = false ∧
      Leads (.between d.front d.back) (d.opening.stop, d.opening.kept) (w ++ blanks) lead rest ∧
      OpensQuery text d.paren.start (d.front ++ (w ++ blanks)) lead rest := by
  obtain ⟨k, hk, w, blanks, lead, rest, spelled, blank, edge, leads⟩ :=
    exists_leads_derivedOpening d.opens
  obtain ⟨s, kept, opened⟩ := leads.opensQuery
  obtain rfl : d.paren = s := Option.some.inj (d.kept.symm.trans kept)
  rw [← d.split] at opened
  exact ⟨k, hk, w, blanks, lead, rest, spelled, blank, edge, leads, opened⟩

end DerivedTable

/-- The name of the derived table at a place, if there is one. -/
def derivedName? (here : Place) : Option String := do
  let opening ← derivedOpening.matchAt? here
  let paren ← Assoc.get? Part.opening opening.kept
  let length ← closing? 0 0 paren.start.rest
  let named ← derivedAlias.matchAt? (paren.start.skip (length + 1))
  some (partText named .aliasName)

theorem exists_of_derivedName? {a b : List Char} {name : String}
    (h : derivedName? (.between a b) = some name) : ∃ d : DerivedTable (a ++ b), d.name = name := by
  simp only [derivedName?, Option.bind_eq_bind, Option.bind_eq_some_iff] at h
  obtain ⟨opening, opens, paren, kept, length, closes, named, aliased, same⟩ := h
  exact ⟨⟨a, b, rfl, opening, opens, paren, kept, length, closes, named, aliased⟩,
    Option.some.inj same⟩

/-! ## What stands in front of a derived table -/

/-- The last character of a text that is no blank. -/
def lastWritten (s : List Char) : Option Char := s.reverse.find? fun c => !isBlank c

/-- Whether FROM or JOIN ends in a letter. -/
def endsDerivedWord (c : Char) : Bool := c == 'm' || c == 'n'

/-- Whether a text ends in a letter that FROM or JOIN ends in, or in that and blanks. -/
def endsOpen (s : List Char) : Bool := (lastWritten s).any fun c => endsDerivedWord (keywordLetter c)

/-- Text that ends neither within a word nor behind FROM or JOIN. -/
structure Sealed (front : List Char) : Prop where
  edge : front.getLast?.any isWord = false
  written : endsOpen front = false

theorem lastWritten_concat {s : List Char} {c : Char} (written : isBlank c = false) :
    lastWritten (s ++ [c]) = some c := by
  simp [lastWritten, written]

theorem lastWritten_append_blank {s t : List Char} (blank : ∀ c ∈ t, isBlank c = true) :
    lastWritten (s ++ t) = lastWritten s := by
  have none : t.reverse.find? (fun c => !isBlank c) = none := by
    rw [List.find?_eq_none]
    intro c hc
    simp [blank c (List.mem_reverse.mp hc)]
  rw [lastWritten, List.reverse_append, List.find?_append, none, Option.none_or, lastWritten]

theorem endsOpen_append_blank {s t : List Char} (blank : ∀ c ∈ t, isBlank c = true) :
    endsOpen (s ++ t) = endsOpen s := by
  rw [endsOpen, lastWritten_append_blank blank, endsOpen]

/-- Behind a keyword it is the keyword that counts. -/
theorem endsOpen_append_of_spells {ks : List String} (words : AreWords ks) {k : String}
    (hk : k ∈ ks) {w : List Char} (spelled : Spells k w) (s : List Char) :
    endsOpen (s ++ w) = (k.toList.map Char.toLower).getLast?.any endsDerivedWord := by
  rcases List.eq_nil_or_concat' w with rfl | ⟨w, c, rfl⟩
  · exact absurd rfl (ne_nil_of_spells words hk spelled)
  · have word := isWord_of_spells words hk spelled c (by simp)
    rw [endsOpen, ← List.append_assoc, lastWritten_concat (not_isBlank_of_isWord word), ← spelled]
    simp

/-- FROM and JOIN leave a text open. -/
theorem endsOpen_append_derivedWord {k : String} (hk : k ∈ derivedWords) {w : List Char}
    (spelled : Spells k w) (s : List Char) : endsOpen (s ++ w) = true := by
  have letters : ∀ k ∈ derivedWords,
      (k.toList.map Char.toLower).getLast?.any endsDerivedWord = true := by decide
  rw [endsOpen_append_of_spells (by decide) hk spelled, letters k hk]

theorem sealed_concat {c : Char} (outside : isWord c = false) (written : isBlank c = false)
    (s : List Char) : Sealed (s ++ [c]) := by
  have letter : keywordLetter c ≠ 'm' ∧ keywordLetter c ≠ 'n' := by
    constructor <;>
      (intro same; rw [← isWord_keywordLetter, same] at outside; exact absurd outside (by decide))
  refine ⟨by simp [outside], ?_⟩
  rw [endsOpen, lastWritten_concat written]
  simp [endsDerivedWord, letter]

theorem Sealed.append_blank {s t : List Char} (h : Sealed s) (blank : ∀ c ∈ t, isBlank c = true) :
    Sealed (s ++ t) :=
  ⟨getLast?_append_blank blank h.edge, by rw [endsOpen_append_blank blank, h.written]⟩

/-- A keyword and blanks seal what they end. -/
theorem sealed_of_spells {ks : List String} (words : AreWords ks) {k : String} (hk : k ∈ ks)
    (letter : (k.toList.map Char.toLower).getLast?.any endsDerivedWord = false) {w blanks : List Char}
    (spelled : Spells k w) (nonempty : blanks ≠ []) (blank : ∀ c ∈ blanks, isBlank c = true)
    (s : List Char) : Sealed (s ++ (w ++ blanks)) := by
  refine ⟨?_, ?_⟩
  · rw [← List.append_assoc, List.getLast?_append, List.getLast?_eq_some_getLast nonempty]
    exact isWord_of_isBlank (blank _ (List.getLast_mem nonempty))
  · rw [← List.append_assoc, endsOpen_append_blank blank,
      endsOpen_append_of_spells words hk spelled, letter]

namespace DerivedTable

variable {text : List Char} (d : DerivedTable text)

/-- In front of the parenthesis of a derived table there is FROM or JOIN. -/
theorem endsOpen_of_split {outside r : List Char} (split : text = outside ++ r)
    (position : d.paren.start.position = outside.length) : endsOpen outside = true := by
  obtain ⟨k, hk, w, blanks, lead, rest, spelled, blank, -, -, opens⟩ := d.exists_shape
  have start : d.paren.start.position = (d.front ++ (w ++ blanks)).length :=
    congrArg Place.position opens.place
  obtain ⟨rfl, -⟩ := List.append_inj (split.symm.trans opens.split) (position.symm.trans start)
  rw [← List.append_assoc, endsOpen_append_blank blank, endsOpen_append_derivedWord hk spelled]

/-- A derived table that opens behind a sealed front stands behind it with its keyword. -/
theorem length_le_front {x r : List Char} (split : text = x ++ r) (closed : Sealed x)
    (behind : x.length ≤ d.paren.start.position) : x.length ≤ d.front.length := by
  obtain ⟨k, hk, w, blanks, lead, rest, spelled, blank, -, -, opens⟩ := d.exists_shape
  have position : d.paren.start.position = (d.front ++ (w ++ blanks)).length :=
    congrArg Place.position opens.place
  obtain ⟨a, whole, -⟩ := exists_append_of_le (split.symm.trans opens.split) (position ▸ behind)
  refine Nat.le_of_not_lt fun longer => ?_
  rcases List.append_eq_append_iff.mp whole with ⟨e, rfl, inner⟩ | ⟨e, front, -⟩
  · rcases List.append_eq_append_iff.mp inner with ⟨e', rfl, rest⟩ | ⟨e', rfl, rest⟩
    · have written := closed.written
      rw [← List.append_assoc, endsOpen_append_blank fun c hc =>
        blank c (rest ▸ List.mem_append_left _ hc), endsOpen_append_derivedWord hk spelled] at written
      cases written
    · rcases List.eq_nil_or_concat' e with rfl | ⟨e, c, rfl⟩
      · simp at longer
      · have edge := closed.edge
        have word := isWord_of_spells (by decide) hk spelled c (by simp)
        simp [← List.append_assoc, word] at edge
  · rw [front, List.length_append] at longer
    omega

end DerivedTable

/-! ## Derived tables of a part -/

theorem contained_derivedAlias : Contained derivedAlias := ⟨by decide, by decide, by decide⟩

/-- A derived table that opens in an excerpt is one of the excerpt, if its keyword cannot stand in
front of it. -/
theorem Excerpt.exists_derivedTable {text : List Char} (e : Excerpt text) (closed : Sealed e.front)
    (d : DerivedTable text) (behind : e.front.length ≤ d.paren.start.position)
    (before : d.paren.start.position < e.front.length + e.part.length) :
    ∃ d' : DerivedTable e.part, d'.name = d.name := by
  have le := d.length_le_front e.split closed behind
  obtain ⟨k, hk, w, blanks, lead, rest, -, -, -, -, opens⟩ := d.exists_shape
  have start : d.paren.start.position = (d.front ++ (w ++ blanks)).length :=
    congrArg Place.position opens.place
  rw [List.length_append] at start
  -- The keyword stands in the part.
  obtain ⟨f, front, whole⟩ : ∃ f, d.front = e.front ++ f ∧ e.part ++ e.tail = f ++ d.back := by
    rcases List.append_eq_append_iff.mp (e.split.symm.trans d.split) with found | ⟨f, longer, back⟩
    · exact found
    · rw [longer, List.length_append] at le
      obtain rfl : f = [] := List.length_eq_zero_iff.mp (by omega)
      exact ⟨[], by simpa using longer.symm, by simpa using back.symm⟩
  rw [front, List.length_append] at start
  obtain ⟨g, inner, back⟩ : ∃ g, e.part = f ++ g ∧ d.back = g ++ e.tail := by
    rcases List.append_eq_append_iff.mp whole with ⟨g, longer, -⟩ | found
    · rw [longer, List.length_append] at start
      omega
    · exact found
  have opened := d.opens
  rw [front, back] at opened
  rcases queryOpening_derivedOpening.contained.matchAt?_embeds e.closing (e.embeds inner) with
    ⟨none, -⟩ | ⟨m, m', found, found', both⟩
  · rw [none] at opened
    cases opened
  obtain rfl : m = d.opening := Option.some.inj (found.symm.trans opened)
  obtain ⟨head, lead', rest', leads⟩ := queryOpening_derivedOpening.exists_leads found'
  obtain ⟨s, kept, opens'⟩ := leads.opensQuery
  rw [← inner] at opens'
  have spans := get?_embeds Part.opening both.kept
  rw [d.kept, kept] at spans
  cases spans with
  | some span =>
    obtain ⟨-, -, embeds⟩ := span
    have inside : s.start.rest = '(' :: (lead' ++ rest') := congrArg Place.rest opens'.place
    have closes := d.closes
    rw [embeds.rest, inside, e.closing?_eq opens'.split, ← inside] at closes
    rcases contained_derivedAlias.matchAt?_embeds e.closing
      (embeds.skip (n := d.length + 1) (lt_of_closing? closes)) with
      ⟨none, -⟩ | ⟨n, n', named, named', same⟩
    · rw [d.aliased] at none
      cases none
    obtain rfl : n = d.named := Option.some.inj (named.symm.trans d.aliased)
    refine ⟨⟨f, g, inner, m', found', s, kept, d.length, closes, n', named'⟩, ?_⟩
    rw [DerivedTable.name, DerivedTable.name, partText, partText, same.part_eq]

/-! ## Derived tables that are found -/

namespace DerivedTable

variable {text : List Char} (d : DerivedTable text)

/-- No opening of a derived table goes on into another one. -/
theorem stopsIn : StopsIn derivedOpening d.front d.back := by
  intro a b split nonempty m found
  obtain ⟨k, hk, w, blanks, lead, rest, spelled, blank, -, leads⟩ := exists_leads_derivedOpening found
  obtain ⟨k', hk', w', blanks', lead', rest', spelled', -, edge, leads', -⟩ := d.exists_shape
  have word := isWord_of_spells (by decide) hk spelled
  obtain ⟨c, w', rfl⟩ := List.exists_cons_of_ne_nil
    (ne_nil_of_spells (by decide) hk' spelled')
  have first : isWord c = true :=
    isWord_of_spells (by decide) hk' spelled' c (List.mem_cons_self ..)
  have back : d.back = c :: (w' ++ blanks') ++ '(' :: (lead' ++ rest') := leads'.split
  have stop : m.stop.position = a.length + ((w ++ blanks).length + 1 + lead.length) := leads.stop
  refine Nat.le_of_not_lt fun longer => ?_
  -- The keyword of the other derived table would start in the keyword of the match, which has only
  -- word characters in front of there.
  have whole : (w ++ (blanks ++ '(' :: lead)) ++ rest =
      b ++ c :: (w' ++ blanks' ++ '(' :: (lead' ++ rest')) := by
    have found : b ++ d.back = w ++ blanks ++ '(' :: (lead ++ rest) := leads.split
    rw [back] at found
    simpa using found.symm
  obtain ⟨b', whole, -⟩ := exists_append_of_lt whole (by
    simp only [split, List.length_append, List.length_cons] at longer stop ⊢
    omega)
  rcases Nat.lt_or_ge b.length w.length with inside | behind
  · obtain ⟨w'', rfl, -⟩ := exists_append_of_lt whole inside
    rw [split, List.getLast?_append, List.getLast?_eq_some_getLast nonempty] at edge
    simp [word _ (List.mem_append_left _ (List.getLast_mem nonempty))] at edge
  · obtain ⟨b'', -, rest⟩ := exists_append_of_le whole behind
    have mem : c ∈ blanks ++ '(' :: lead := rest ▸ by simp
    rcases List.mem_append.mp mem with hc | hc
    · simp [isWord_of_isBlank (blank c hc)] at first
    · rcases List.mem_cons.mp hc with rfl | hc
      · cases first
      · simp [isWord_of_isBlank (leads.blank c hc)] at first

/-- A pass that is not cut short finds all derived tables. -/
theorem mem_findAll : d.opening ∈ derivedOpening.findAll text := by
  obtain ⟨k, hk, w, blanks, lead, rest, -, -, -, leads, -⟩ := d.exists_shape
  have back : d.back = w ++ blanks ++ '(' :: (lead ++ rest) := leads.split
  have found := mem_findAll_of_stopsIn d.stopsIn (by simp [back]) d.opens
  rwa [← d.split] at found

/-- A derived table is a candidate, and known as one. -/
theorem mem_candidates {limit : Int} (complete : Complete (bounded limit derivedOpening text).2) :
    ⟨d.paren.start, true⟩ ∈ candidates limit text := by
  have listed : ⟨d.paren.start, true⟩ ∈ openings true (bounded limit derivedOpening text).1 := by
    rw [bounded_of_complete complete]
    exact mem_openings.mpr ⟨_, d.mem_findAll, _, d.kept, rfl⟩
  obtain ⟨c, found⟩ := Option.isSome_iff_exists.mp
    (List.find?_isSome (p := fun x => x.place.position == d.paren.start.position) |>.mpr
      ⟨_, listed, beq_self_eq_true d.paren.start.position⟩)
  have same : c.place.position = d.paren.start.position := by simpa using List.find?_some found
  have hc := List.mem_of_find?_eq_some found
  have openings_found : ∀ o ∈ openings true (bounded limit derivedOpening text).1,
      o ∈ foundOpenings limit text := fun o ho =>
    List.mem_append_left _ (List.mem_append_left _ ho)
  obtain ⟨_, _, _, opens⟩ := exists_opensQuery_of_mem_foundOpenings (openings_found c hc)
  obtain ⟨_, _, _, opens'⟩ := exists_opensQuery_of_mem_foundOpenings (openings_found _ listed)
  obtain ⟨m, -, s, -, rfl⟩ := mem_openings.mp hc
  have place : s.start = d.paren.start := opens.place_eq opens' same
  rw [place] at found
  rw [mem_candidates_iff, foundOpenings, List.find?_append, List.find?_append, found]
  rfl

/-- The query of a derived table goes by its name. -/
theorem name_nested : (Opening.nested ⟨d.paren.start, true⟩).name = some (lower d.name) := by
  rw [Opening.nested, d.closes]
  simp only [if_true]
  rw [d.aliased, name, partText, lower, String.toList_ofList]
  rfl

end DerivedTable

/-- What stands behind the parenthesis of a query is sealed. -/
theorem Enclosure.isSealed {text : List Char} (e : Enclosure text) : Sealed e.front := by
  have front : e.front = (e.outside ++ ['(']) ++ e.lead := by
    rw [e.front_eq, List.append_assoc, List.singleton_append]
  rw [front]
  exact (sealed_concat (by decide) (by decide) _).append_blank e.blank

/-- A complete scan comes across the names of all derived tables of the text. -/
theorem DerivedTable.defined_mem_scan {limit : Int} {levels : Nat} {text : List Char}
    (complete : Complete (scan limit levels text)) (d : DerivedTable text) :
    .defined (lower d.name) ∈ scan limit levels text := by
  induction levels using Nat.strongRecOn generalizing text with
  | ind levels ih =>
    have passes : Complete (bounded limit derivedOpening text).2 := complete.mono fun e he =>
      mem_scan.mpr (.inr (.inl (List.mem_append_left _ (List.mem_append_left _ he))))
    obtain ⟨q, hq, followed, covers⟩ := exists_covering
      (pairwise_firstAtEach (ascending_mergeSort _)) (d.mem_candidates passes) (Nat.zero_le _)
    rcases covers with rfl | ⟨behind, before⟩
    · have named : .defined (lower d.name) ∈ (Opening.nested ⟨d.paren.start, true⟩).definition := by
        rw [Nested.definition, d.name_nested]
        exact List.mem_singleton.mpr rfl
      exact mem_scan.mpr (.inr (.inr ⟨_, followed, .inl named⟩))
    · obtain ⟨_, _, _, opens⟩ := exists_opensQuery_of_mem_foundOpenings
        (mem_foundOpenings_of_mem_candidates hq)
      obtain ⟨k, rfl, more⟩ := exists_pred_of_shallow complete.deep followed
      obtain ⟨enclosure, part, -, inside⟩ := exists_enclosure opens
      obtain ⟨_, -, w, blanks, _, _, -, -, -, -, opens'⟩ := d.exists_shape
      have position : d.paren.start.position = (d.front ++ (w ++ blanks)).length :=
        congrArg Place.position opens'.place
      simp only [position] at behind before
      obtain ⟨a, b, place, front⟩ := inside _ _ opens'.split behind before
      rw [front, List.length_append] at position
      have within : a.length < enclosure.part.length := by simp [place]
      obtain ⟨d', same⟩ := enclosure.exists_derivedTable enclosure.isSealed d
        (by omega) (by omega)
      rw [← part] at more
      exact same ▸ more _ (ih k (Nat.lt_succ_self k) (complete.mono more) d')

end QueryWorkbench.Analysis
