/-
QueryWorkbench.Proofs.Analysis.LetterCase — letter case does not change an analysis.

Every step of an analysis does to a text with small letters what it does to the text: the same
characters are left out, the same matches are made at the same positions, and the same queries are
followed. So a scan comes across the same events with their names in small letters
(`scanStatement_lowered`). Names are compared in small letters only, so the events add up to the
same findings (`foldl_add_lowered`), and the report is that of the text with its names in small
letters.
-/
import QueryWorkbench.Analysis.Report
import QueryWorkbench.Proofs.Pattern.LetterCase

namespace QueryWorkbench

/-- A pair of tables with its names, and its condition, changed. -/
def JoinedPair.mapNames (f : String → String) (j : JoinedPair) : JoinedPair :=
  { source := f j.source
    target := f j.target
    condition := j.condition.map f
    sourceColumn := j.sourceColumn.map f
    targetColumn := j.targetColumn.map f }

/-- A report with all names changed but the keys of the aliases. -/
def Report.mapNames (f : String → String) (r : Report) : Report :=
  { tables := r.tables.map f
    joins := r.joins.map (JoinedPair.mapNames f)
    aliases := r.aliases.map fun e => (e.1, f e.2) }

namespace Analysis

open Text Pattern

/-! ## Scrubbing -/

theorem strip_toLower (region : Region) (done s : List Char) :
    strip region (done.map Char.toLower) (s.map Char.toLower) =
      (strip region done s).map Char.toLower := by
  -- A step takes one character or two, so the induction is on the length.
  induction length : s.length using Nat.strongRecOn generalizing region done s with
  | ind n ih =>
    cases s with
    | nil => cases region <;> exact List.map_reverse.symm
    | cons c rest =>
      have one : rest.length < n := by rw [← length]; exact Nat.lt_succ_self _
      have two : rest.tail.length < n := by rw [List.length_tail]; omega
      have is {k : Char} (other : k.isAlpha = false) : c.toLower = k ↔ c = k := toLower_eq_iff other
      have next {k : Char} (other : k.isAlpha = false) :
          (rest.map Char.toLower).head? = some k ↔ rest.head? = some k := head?_toLower_eq_iff other
      rw [List.map_cons]
      cases region with
      | code =>
        rw [strip_cons, strip_cons]
        simp only [is (k := '\x27') (by decide), is (k := '-') (by decide),
          is (k := '/') (by decide), next (k := '-') (by decide), next (k := '*') (by decide),
          ← List.map_tail]
        split
        · exact ih _ one _ ('\x27' :: '\x27' :: done) _ rfl
        split
        · exact ih _ two _ _ _ rfl
        split
        · exact ih _ two _ (' ' :: done) _ rfl
        · exact ih _ one _ (c :: done) _ rfl
      | literal =>
        rw [strip_cons, strip_cons]
        simp only [is (k := '\x27') (by decide), next (k := '\x27') (by decide), ← List.map_tail]
        split
        · split
          · exact ih _ two _ _ _ rfl
          · exact ih _ one _ _ _ rfl
        · exact ih _ one _ _ _ rfl
      | lineComment =>
        rw [strip_cons, strip_cons]
        simp only [is (k := '\n') (by decide)]
        split
        · exact ih _ one _ ('\n' :: done) _ rfl
        · exact ih _ one _ _ _ rfl
      | blockComment =>
        rw [strip_cons, strip_cons]
        simp only [is (k := '*') (by decide), next (k := '/') (by decide), ← List.map_tail]
        split
        · exact ih _ two _ _ _ rfl
        · exact ih _ one _ _ _ rfl

theorem closingQuote?_toLower (c : Char) : closingQuote? c.toLower = closingQuote? c :=
  apply_toLower closingQuote? (by decide) c

theorem isAlpha_of_closingQuote? {c quote : Char} (h : closingQuote? c = some quote) :
    quote.isAlpha = false := by
  rw [closingQuote?] at h
  split at h
  · obtain rfl := Option.some.inj h
    decide
  · split at h
    · rename_i which
      obtain rfl := Option.some.inj h
      rcases (Bool.or_eq_true _ _).mp which with h | h <;> (rw [of_decide_eq_true h]; decide)
    · cases h

theorem unquoteNames_toLower (skipped : Nat) (done s : List Char) :
    unquoteNames skipped (done.map Char.toLower) (s.map Char.toLower) =
      (unquoteNames skipped done s).map Char.toLower := by
  induction s generalizing skipped done with
  | nil => rw [List.map_nil, unquoteNames, unquoteNames, List.map_reverse]
  | cons c rest ih =>
    cases skipped with
    | succ n => exact ih n done
    | zero =>
      rw [List.map_cons, unquoteNames, unquoteNames, closingQuote?_toLower]
      cases quoted : closingQuote? c with
      | none => exact ih 0 (c :: done)
      | some quote =>
        have closed :
            (((rest.drop (rest.takeWhile isWord).length).map Char.toLower).head? == some quote) =
              ((rest.drop (rest.takeWhile isWord).length).head? == some quote) := by
          rw [Bool.eq_iff_iff, beq_iff_eq, beq_iff_eq]
          exact head?_toLower_eq_iff (isAlpha_of_closingQuote? quoted)
        simp only [takeWhile_isWord_toLower, List.isEmpty_map, List.length_map, ← List.map_drop,
          closed]
        split
        · rw [← List.map_reverse, ← List.map_append]
          exact ih _ _
        · exact ih 0 (c :: done)

theorem scrubChars_toLower (s : List Char) :
    scrubChars (s.map Char.toLower) = (scrubChars s).map Char.toLower := by
  have stripped := strip_toLower .code [] s
  have unquoted := unquoteNames_toLower 0 [] (strip .code [] s)
  rw [List.map_nil] at stripped unquoted
  rw [scrubChars, stripped, unquoted, squeeze_toLower, trim_toLower, scrubChars]

/-! ## Parentheses -/

theorem closing?_toLower (opened : Int) (passed : Nat) (s : List Char) :
    closing? opened passed (s.map Char.toLower) = closing? opened passed s := by
  induction s generalizing opened passed with
  | nil => rfl
  | cons c rest ih =>
    simp only [List.map_cons, closing?, ih, toLower_eq_iff (k := '(') (by decide),
      toLower_eq_iff (k := ')') (by decide)]

theorem startsSubquery_lowered (here : Place) :
    startsSubquery here.lowered = startsSubquery here := by
  rw [startsSubquery, matchAt?_lowered (by decide), Option.isSome_map, startsSubquery]

theorem callsFrom_toLower (opened : List Bool) (pending done : List Int) (position : Nat)
    (s : List Char) :
    callsFrom opened pending done position (s.map Char.toLower) =
      callsFrom opened pending done position s := by
  induction s generalizing opened pending done position with
  | nil => rfl
  | cons c rest ih =>
    have start : startsSubquery ⟨some c.toLower, position + 1, rest.map Char.toLower⟩ =
        startsSubquery ⟨some c, position + 1, rest⟩ :=
      startsSubquery_lowered ⟨some c, position + 1, rest⟩
    simp only [List.map_cons, callsFrom, ih, start, toLower_eq_iff (k := '(') (by decide),
      toLower_eq_iff (k := ')') (by decide)]

theorem callPositions_toLower (text : List Char) (positions : List Int) :
    callPositions (text.map Char.toLower) positions = callPositions text positions :=
  callsFrom_toLower _ _ _ _ _

/-! ## Events of a scan -/

/-- An event with its names in small letters. -/
def Event.lowered : Event → Event
  | .mentioned schema table aliasName =>
    .mentioned (schema.map String.toLower) table.toLower (aliasName.map String.toLower)
  | e => e

theorem partText?_lowered (m : Match Part) (slot : Part) :
    partText? m.lowered slot = (partText? m slot).map String.toLower := by
  simp only [partText?, Match.part?_lowered, Option.map_map, Function.comp_def, ofList_toLower]

theorem partText_lowered (m : Match Part) (slot : Part) :
    partText m.lowered slot = (partText m slot).toLower := by
  rw [partText, Match.part_lowered, ofList_toLower, partText]

theorem mention_lowered (m : Match Part) : mention m.lowered = (mention m).lowered := by
  rw [mention, mention, Event.lowered, partText?_lowered, partText?_lowered, partText?_lowered,
    partText_lowered, ← Option.map_or]

variable (limit : Int)

theorem bounded_lowered {p : Pattern Part} (h : p.ignoresCase = true) (text : List Char) :
    bounded limit p (text.map Char.toLower) =
      ((bounded limit p text).1.map Match.lowered, (bounded limit p text).2) := by
  rw [bounded, findAll_lowered h, List.length_map, ← List.map_take, bounded]

theorem commaTables_lowered (fuel : Nat) (here : Place) :
    commaTables fuel here.lowered = (commaTables fuel here).map Event.lowered := by
  induction fuel generalizing here with
  | zero => rfl
  | succ fuel ih =>
    rw [commaTables, commaTables, matchAt?_lowered (by decide)]
    cases commaTable.matchAt? here with
    | none => rfl
    | some m =>
      show mention m.lowered :: commaTables fuel m.stop.lowered = _
      rw [mention_lowered, ih, List.map_cons]

theorem fromTables_lowered (m : Match Part) :
    fromTables m.lowered = (fromTables m).map Event.lowered := by
  show mention m.lowered :: commaTables (m.stop.rest.map Char.toLower).length m.stop.lowered = _
  rw [mention_lowered, commaTables_lowered, List.length_map, fromTables, List.map_cons]

/-- What tells that a pass was cut short has no names in it. -/
theorem map_lowered_bounded (p : Pattern Part) (text : List Char) :
    (bounded limit p text).2.map Event.lowered = (bounded limit p text).2 := by
  rw [bounded]
  split <;> rfl

theorem surface_lowered (text : List Char) :
    surface limit (text.map Char.toLower) = (surface limit text).map Event.lowered := by
  simp only [surface, bounded_lowered limit (p := fromTable) (by decide),
    bounded_lowered limit (p := joinTable) (by decide), callPositions_toLower, List.map_append,
    map_lowered_bounded, List.map_map, List.map_flatMap, List.filter_map, List.flatMap_map,
    Function.comp_def, fromTables_lowered, mention_lowered]
  rfl

/-! ## Nested queries -/

/-- An opening in the text with small letters. -/
def Opening.lowered (o : Opening) : Opening := ⟨o.place.lowered, o.derived⟩

/-- A nested query in small letters. -/
def Nested.lowered (n : Nested) : Nested := ⟨n.body.map Char.toLower, n.name⟩

theorem openings_lowered (derived : Bool) (found : List (Match Part)) :
    openings derived (found.map Match.lowered) = (openings derived found).map Opening.lowered := by
  simp only [openings, List.filterMap_map, List.map_filterMap, Function.comp_def, Match.lowered,
    Kept.get?_lowered, Option.map_map]
  rfl

theorem outermost_lowered (covered : Nat) (openings : List Opening) :
    outermost covered (openings.map Opening.lowered) =
      (outermost covered openings).map Nested.lowered := by
  induction openings generalizing covered with
  | nil => rfl
  | cons o rest ih =>
    have position : o.lowered.place.position = o.place.position := rfl
    have text : o.lowered.place.rest = o.place.rest.map Char.toLower := rfl
    have skip (n : Nat) : o.lowered.place.skip n = (o.place.skip n).lowered :=
      Place.skip_lowered n _
    simp only [List.map_cons, outermost, position, text, closing?_toLower, skip, ih,
      matchAt?_lowered (p := derivedAlias) (by decide), Option.map_map, Function.comp_def,
      Match.part_lowered, lowerChars_toLower, List.length_map, ← List.map_take, ← List.map_drop,
      trim_toLower]
    split
    · rfl
    · cases closing? 0 0 o.place.rest <;> rfl

theorem firstAtEach_lowered (last : Option Nat) (openings : List Opening) :
    firstAtEach last (openings.map Opening.lowered) =
      (firstAtEach last openings).map Opening.lowered := by
  induction openings generalizing last with
  | nil => rfl
  | cons o rest ih =>
    have position : o.lowered.place.position = o.place.position := rfl
    rw [List.map_cons, firstAtEach, firstAtEach, ih, ih, position]
    split <;> rfl

theorem nestedQueries_lowered (text : List Char) :
    nestedQueries limit (text.map Char.toLower) =
      ((nestedQueries limit text).1.map Nested.lowered, (nestedQueries limit text).2) := by
  have sorted (found : List Opening) :
      (found.map Opening.lowered).mergeSort (fun a b => a.place.position ≤ b.place.position) =
        (found.mergeSort fun a b => a.place.position ≤ b.place.position).map Opening.lowered := by
    rw [List.map_mergeSort]
    exact fun _ _ _ _ => rfl
  simp only [nestedQueries, bounded_lowered limit (p := derivedOpening) (by decide),
    bounded_lowered limit (p := predicateOpening) (by decide),
    bounded_lowered limit (p := scalarOpening) (by decide), openings_lowered, ← List.map_append,
    sorted, firstAtEach_lowered, outermost_lowered]

/-! ## Whole texts -/

theorem definition_lowered (n : Nested) : n.definition.map Event.lowered = n.definition := by
  rw [Nested.definition]
  cases n.name <;> rfl

/-- What tells that a pass for nested queries was cut short has no names in it. -/
theorem map_lowered_nestedQueries (text : List Char) :
    (nestedQueries limit text).2.map Event.lowered = (nestedQueries limit text).2 := by
  simp only [nestedQueries, List.map_append, map_lowered_bounded]

/-- By induction on the levels: the queries nested in a text are those of the text with small
letters, in small letters themselves. -/
theorem scan_lowered (levels : Nat) (text : List Char) :
    scan limit levels (text.map Char.toLower) = (scan limit levels text).map Event.lowered := by
  induction levels generalizing text with
  | zero =>
    simp only [scan, surface_lowered, nestedQueries_lowered, List.map_append,
      map_lowered_nestedQueries, List.flatMap_map, List.map_flatMap, definition_lowered]
    rfl
  | succ levels ih =>
    simp only [scan, surface_lowered, nestedQueries_lowered, List.map_append,
      map_lowered_nestedQueries, List.flatMap_map, List.map_flatMap, definition_lowered,
      Nested.lowered, ih]
    rfl

/-- By induction on the fuel, which both scans use up alike. -/
theorem scanNamed_lowered (levels fuel : Nat) (here : Place) :
    scanNamed limit levels fuel here.lowered =
      ((scanNamed limit levels fuel here).1.map Event.lowered,
        (scanNamed limit levels fuel here).2.map Char.toLower) := by
  have text (p : Place) : p.lowered.rest = p.rest.map Char.toLower := rfl
  have stop (m : Match Part) : m.lowered.stop = m.stop.lowered := rfl
  induction fuel generalizing here with
  | zero => simp only [scanNamed, text, trim_toLower, List.map_nil]
  | succ fuel ih =>
    rw [scanNamed, scanNamed, matchAt?_lowered (by decide)]
    cases cteHead.matchAt? here with
    | none => simp only [Option.map_none, text, trim_toLower, List.map_nil]
    | some m =>
      simp only [Option.map_some, Match.part_lowered, lowerChars_toLower, stop, text,
        closing?_toLower]
      cases closing? 1 0 m.stop.rest with
      | none => simp only [scan_lowered, List.map_cons, List.map_nil, Event.lowered]
      | some n =>
        simp only [Place.skip_lowered, matchAt?_lowered (p := cteSeparator) (by decide),
          ← List.map_take, scan_lowered]
        cases cteSeparator.matchAt? (m.stop.skip (n + 1)) with
        | none => simp only [Option.map_none, text, trim_toLower, List.map_cons, Event.lowered]
        | some s =>
          simp only [Option.map_some, stop, ih, List.map_append, List.map_cons, Event.lowered]

/-- The events of a text in small letters are those of the text with their names in small
letters. -/
theorem scanStatement_lowered (maxDepth : Int) (text : List Char) :
    scanStatement limit maxDepth (text.map Char.toLower) =
      (scanStatement limit maxDepth text).map Event.lowered := by
  have stop (m : Match Part) : m.lowered.stop = m.stop.lowered := rfl
  have length (p : Place) : p.lowered.rest.length = p.rest.length := List.length_map _
  rw [scanStatement, scanStatement, Place.start_lowered, matchAt?_lowered (by decide)]
  cases withHead.matchAt? (Place.start text) with
  | none => exact scan_lowered limit _ _
  | some head =>
    simp only [Option.map_some, stop, length, scanNamed_lowered, scan_lowered, List.map_append]

/-! ## Findings -/

/-- Findings with the names of tables in small letters. -/
def Findings.lowered (f : Findings) : Findings :=
  { tables := f.tables.map String.toLower
    aliases := f.aliases.map fun e => (e.1, e.2.toLower)
    defined := f.defined }

theorem put_lowered (key value : String) (entries : List (String × String)) :
    Assoc.put key value.toLower (entries.map fun e => (e.1, e.2.toLower)) =
      (Assoc.put key value entries).map fun e => (e.1, e.2.toLower) := by
  induction entries with
  | nil => rfl
  | cons e rest ih =>
    rw [List.map_cons, Assoc.put, Assoc.put, ih]
    split <;> rfl

theorem get?_lowered (key : String) (entries : List (String × String)) :
    Assoc.get? key (entries.map fun e => (e.1, e.2.toLower)) =
      (Assoc.get? key entries).map String.toLower := by
  induction entries with
  | nil => rfl
  | cons e rest ih =>
    rw [List.map_cons, Assoc.get?, Assoc.get?, ih]
    split <;> rfl

theorem fullName_lowered (schema : Option String) (table : String) :
    fullName (schema.map String.toLower) table.toLower = (fullName schema table).toLower := by
  cases schema with
  | none => rfl
  | some s =>
    show s.toLower ++ "." ++ table.toLower = (s ++ "." ++ table).toLower
    have dot : ".".toLower = "." := (ofList_toLower ['.']).symm
    rw [toLower_append, toLower_append, dot]

theorem add_lowered (f : Findings) (e : Event) :
    f.lowered.add e.lowered = (f.add e).lowered := by
  cases e with
  | defined name => rfl
  | tooDeep => rfl
  | cutShort => rfl
  | mentioned schema table aliasName =>
    have key (a : Option String) : (a.map String.toLower).map lower = a.map lower := by
      cases a with
      | none => rfl
      | some a => rw [Option.map_some, Option.map_some, lower_toLower, Option.map_some]
    have names : f.lowered.defined = f.defined := rfl
    simp only [Findings.add, Event.lowered, lower_toLower, fullName_lowered, key, names]
    by_cases defined : lower table ∈ f.defined
    · rw [if_pos defined, if_pos defined]
      rfl
    · rw [if_neg defined, if_neg defined]
      cases aliasName with
      | none => simp only [Option.map_none, Findings.lowered, put_lowered, List.map_cons]
      | some a =>
        simp only [Option.map_some, Findings.lowered, lower_toLower, put_lowered, List.map_cons]

theorem foldl_add_lowered (f : Findings) (events : List Event) :
    (events.map Event.lowered).foldl Findings.add f.lowered =
      (events.foldl Findings.add f).lowered := by
  induction events generalizing f with
  | nil => rfl
  | cons e rest ih => rw [List.map_cons, List.foldl_cons, add_lowered, ih, List.foldl_cons]

theorem firstMentions_lowered (seen tables : List String) :
    firstMentions seen (tables.map String.toLower) =
      (firstMentions seen tables).map String.toLower := by
  induction tables generalizing seen with
  | nil => rfl
  | cons t rest ih =>
    rw [List.map_cons, firstMentions, firstMentions, lower_toLower, ih, ih]
    split <;> rfl

theorem uniqueTables_lowered (f : Findings) :
    f.lowered.uniqueTables = f.uniqueTables.map String.toLower := by
  rw [Findings.uniqueTables, Findings.lowered, ← List.map_reverse, firstMentions_lowered,
    Findings.uniqueTables]

theorem resolve_lowered (f : Findings) (schema : Option String) (name : String) :
    f.lowered.resolve (schema.map String.toLower) name.toLower =
      (f.resolve schema name).toLower := by
  rw [Findings.resolve, Findings.lowered, lower_toLower, get?_lowered, fullName_lowered,
    Findings.resolve]
  cases Assoc.get? (lower name) f.aliases <;> rfl

/-! ## Joins -/

theorem relate?_lowered (f : Findings) (m : Match Part) :
    f.lowered.relate? m.lowered = (f.relate? m).map (JoinedPair.mapNames String.toLower) := by
  have names : f.lowered.defined = f.defined := rfl
  have dot : ".".toLower = "." := (ofList_toLower ['.']).symm
  have equals : " = ".toLower = " = " := (ofList_toLower [' ', '=', ' ']).symm
  simp only [Findings.relate?, partText_lowered, partText?_lowered, lower_toLower, resolve_lowered,
    names]
  split
  · rfl
  split
  · rfl
  simp only [Option.map_some, JoinedPair.mapNames, toLower_append, dot, equals]

theorem firstPairs_lowered (seen : List (String × String)) (pairs : List JoinedPair) :
    firstPairs seen (pairs.map (JoinedPair.mapNames String.toLower)) =
      (firstPairs seen pairs).map (JoinedPair.mapNames String.toLower) := by
  induction pairs generalizing seen with
  | nil => rfl
  | cons j rest ih =>
    have source : lower (j.mapNames String.toLower).source = lower j.source := lower_toLower _
    have target : lower (j.mapNames String.toLower).target = lower j.target := lower_toLower _
    rw [List.map_cons, firstPairs_cons, firstPairs_cons, source, target, ih, ih]
    split <;> rfl

theorem joinsOf_lowered (f : Findings) (text : List Char) :
    joinsOf limit f.lowered (text.map Char.toLower) =
      ((joinsOf limit f text).1.map (JoinedPair.mapNames String.toLower),
        (joinsOf limit f text).2) := by
  simp only [joinsOf, bounded_lowered limit (p := onCondition) (by decide), List.flatMap_map,
    Match.part_lowered, findAll_lowered (p := equality) (by decide), ← List.map_flatMap,
    List.filterMap_map, Function.comp_def, relate?_lowered, ← List.map_filterMap,
    firstPairs_lowered]

theorem map_lowered_joinsOf (f : Findings) (text : List Char) :
    (joinsOf limit f text).2.map Event.lowered = (joinsOf limit f text).2 :=
  map_lowered_bounded limit onCondition text

/-! ## Analyses -/

theorem reportOf_lowered (limits : Limits) (text : List Char) :
    reportOf limits (text.map Char.toLower) =
      ((reportOf limits text).1.mapNames String.toLower,
        (reportOf limits text).2.map Event.lowered) := by
  have found (events : List Event) : (events.map Event.lowered).foldl Findings.add {} =
      (events.foldl Findings.add {}).lowered := foldl_add_lowered {} events
  simp only [reportOf, scanStatement_lowered, found, uniqueTables_lowered, joinsOf_lowered,
    List.map_append, map_lowered_joinsOf, Report.mapNames]
  rfl

theorem warningsOf_lowered (limits : Limits) (events : List Event) :
    warningsOf limits (events.map Event.lowered) = warningsOf limits events := by
  have deep (e : Event) : e.lowered = .tooDeep ↔ e = .tooDeep := by
    cases e <;> simp [Event.lowered]
  have cut (e : Event) : e.lowered = .cutShort ↔ e = .cutShort := by
    cases e <;> simp [Event.lowered]
  simp only [warningsOf, List.filter_map, List.map_map, Function.comp_def, deep, List.mem_map, cut,
    exists_eq_right]

/-- The analysis of a text in small letters is that of the text with all names in small letters. -/
theorem analyze_toLower (limits : Limits) (sql : String) :
    analyze limits sql.toLower =
      ((analyze limits sql).1.mapNames String.toLower, (analyze limits sql).2) := by
  have length : sql.toLower.length = sql.length := by
    rw [← String.length_toList, toList_toLower, List.length_map, String.length_toList]
  simp only [analyze, length, toList_toLower, scrubChars_toLower, reportOf_lowered,
    warningsOf_lowered]
  split <;> rfl

end Analysis

end QueryWorkbench
