/-
QueryWorkbench.Proofs.Analysis.ReportedNames — the characters that the names of a report are written
in.

The names of a report have the characters of the text and a few of its own: the dot behind a schema,
the equals sign and the spaces of a condition, and what scrubbing writes in the place of literals
and comments (`names_subset`). So they are ASCII where the text is, and the analysis of a text in
small letters is the analysis of the text with its names in small letters (`analyze_lower`).

## How the proof goes

A part of a match is a part of the text (`within_of_matchAt?`), and a scan goes on with parts of the
text only (`scan_within`, `scanStatement_within`). The events of a scan are added up one by one, and
each step keeps within the characters (`add_within`, `foldl_add_within`). For `analyze_lower` the
passes have been compared in `Analysis/LetterCase.lean`, where letters are folded as the patterns
fold them; all that is added here is that on the names of this report folding and `lower` are one
(`Report.mapNames_congr`).

## The side condition

The text has to be ASCII. The passes are compared letter by letter, and `lower` goes further on
other texts: it turns some characters into two, and what it does to some depends on what stands
around them.
-/
import QueryWorkbench.Proofs.Analysis.Mentions
import QueryWorkbench.Proofs.Analysis.Reported
import QueryWorkbench.Proofs.Analysis.LetterCase

namespace QueryWorkbench

/-! ## Parts of matches -/

namespace Pattern

variable {σ : Type}

/-- Every part that is kept starts further on in the text. -/
theorem suffix_of_mem_kept {p : Pattern σ} : ∀ {here : Place} {o : Place × Kept σ},
    o ∈ p.outcomes here → ∀ e ∈ o.2, e.2.start.rest <:+ here.rest := by
  -- Patterns that keep nothing are done at once.
  have nothing {p : Pattern σ} (h : p.KeepsNothing) {here : Place} {o : Place × Kept σ}
      (ho : o ∈ p.outcomes here) : ∀ e ∈ o.2, e.2.start.rest <:+ here.rest := by
    rw [h.snd_eq_nil ho]
    exact nofun
  induction p with
  | nothing => exact nothing (p := .nothing) trivial
  | one set => exact nothing (p := .one set) trivial
  | greedy set => exact nothing (p := .greedy set) trivial
  | lazy set => exact nothing (p := .lazy set) trivial
  | notAhead inner => exact nothing (p := .notAhead inner) trivial
  | wordEdge => exact nothing (p := .wordEdge) trivial
  | finish => exact nothing (p := .finish) trivial
  | seq first second ih₁ ih₂ =>
    intro here o ho e he
    obtain ⟨o₁, h₁, o₂, h₂, rfl⟩ := mem_outcomes_seq.mp ho
    obtain ⟨a, split⟩ := exists_append_of_mem_outcomes h₁
    rcases List.mem_append.mp he with he | he
    · exact (ih₂ h₂ e he).trans ⟨a, split.symm⟩
    · exact ih₁ h₁ e he
  | or first second ih₁ ih₂ =>
    intro here o ho
    exact (mem_outcomes_or.mp ho).elim ih₁ ih₂
  | option inner ih =>
    intro here o ho
    rcases mem_outcomes_option.mp ho with ho | rfl
    · exact ih ho
    · exact nofun
  | keep slot inner ih =>
    intro here o ho e he
    obtain ⟨o', ho', rfl⟩ := mem_outcomes_keep.mp ho
    rcases List.mem_cons.mp he with rfl | he
    · exact List.suffix_refl _
    · exact ih ho' e he
  | ahead inner ih =>
    intro here o ho
    obtain ⟨o', first, rfl⟩ := mem_outcomes_ahead.mp ho
    show ∀ e ∈ o'.2, _
    exact ih (List.mem_of_head? first)

end Pattern

namespace Analysis

open Pattern Text

variable {text text' : List Char}

/-- A match whose parts, and what follows it, have no other characters than a text. -/
structure MatchWithin (text : List Char) (m : Match Part) : Prop where
  parts : ∀ slot, m.part slot ⊆ text
  stop : m.stop.rest ⊆ text

theorem MatchWithin.mono {m : Match Part} (h : MatchWithin text m) (sub : text ⊆ text') :
    MatchWithin text' m :=
  ⟨fun slot => List.Subset.trans (h.parts slot) sub, List.Subset.trans h.stop sub⟩

theorem within_of_matchAt? {p : Pattern Part} {here : Place} {m : Match Part}
    (found : p.matchAt? here = some m) : MatchWithin here.rest m := by
  rw [matchAt?_eq_head?] at found
  obtain ⟨o, first, rfl⟩ := Option.map_eq_some_iff.mp found
  have ho := List.mem_of_head? first
  obtain ⟨a, split⟩ := exists_append_of_mem_outcomes ho
  refine ⟨fun slot => ?_, split ▸ List.subset_append_right a _⟩
  rw [Match.part, Match.part?]
  cases kept : Assoc.get? slot o.2 with
  | none => exact List.nil_subset _
  | some span =>
    obtain ⟨e, he, rfl⟩ := List.mem_map.mp (Assoc.mem_values_of_get? kept)
    exact List.Subset.trans (List.take_subset _ _) (suffix_of_mem_kept ho e he).subset

theorem within_of_mem_findAll {p : Pattern Part} {m : Match Part} (hm : m ∈ p.findAll text) :
    MatchWithin text m := by
  obtain ⟨a, b, rfl, -, found⟩ := exists_of_mem_findAll hm
  exact (within_of_matchAt? found).mono (List.subset_append_right a b)

/-! ## Events -/

/-- An event that mentions names of a text only. -/
def Event.Within (text : List Char) : Event → Prop
  | .mentioned schema table aliasName =>
    (∀ s ∈ schema, s.toList ⊆ text) ∧ table.toList ⊆ text ∧ ∀ a ∈ aliasName, a.toList ⊆ text
  | _ => True

theorem Event.Within.mono {e : Event} (h : e.Within text) (sub : text ⊆ text') :
    e.Within text' := by
  cases e with
  | mentioned schema table aliasName =>
    exact ⟨fun s hs => List.Subset.trans (h.1 s hs) sub, List.Subset.trans h.2.1 sub,
      fun a ha => List.Subset.trans (h.2.2 a ha) sub⟩
  | _ => trivial

theorem toList_partText_subset {m : Match Part} (h : MatchWithin text m) (slot : Part) :
    (partText m slot).toList ⊆ text := by
  rw [partText, String.toList_ofList]
  exact h.parts slot

theorem toList_subset_of_mem_partText? {m : Match Part} (h : MatchWithin text m) {slot : Part}
    {s : String} (hs : s ∈ partText? m slot) : s.toList ⊆ text := by
  obtain ⟨w, kept, rfl⟩ := Option.map_eq_some_iff.mp hs
  have part : m.part slot = w := by rw [Match.part, kept, Option.getD_some]
  rw [String.toList_ofList, ← part]
  exact h.parts slot

theorem mention_within {m : Match Part} (h : MatchWithin text m) : (mention m).Within text := by
  refine ⟨fun s hs => ?_, toList_partText_subset h _, fun a => toList_subset_of_mem_partText? h⟩
  rcases Option.or_eq_some_iff.mp hs with hs | ⟨-, hs⟩
  · exact toList_subset_of_mem_partText? h hs
  · exact toList_subset_of_mem_partText? h hs

theorem commaTables_within (fuel : Nat) {here : Place} (sub : here.rest ⊆ text) :
    ∀ e ∈ commaTables fuel here, e.Within text := by
  induction fuel generalizing here with
  | zero => exact List.forall_mem_nil _
  | succ fuel ih =>
    rw [commaTables]
    cases found : commaTable.matchAt? here with
    | none => exact List.forall_mem_nil _
    | some m =>
      have within := (within_of_matchAt? found).mono sub
      exact List.forall_mem_cons.mpr ⟨mention_within within, ih within.stop⟩

theorem mentions_within {e : Event} (h : Mentions text e) : e.Within text := by
  rcases h with ⟨m, hm, -, he⟩ | ⟨m, hm, rfl⟩
  · have within := within_of_mem_findAll hm
    rcases List.mem_cons.mp he with rfl | he
    · exact mention_within within
    · exact commaTables_within _ within.stop e he
  · exact mention_within (within_of_mem_findAll hm)

theorem scan_within {limit : Int} {levels : Nat} {e : Event} (he : e ∈ scan limit levels text) :
    e.Within text := by
  cases e with
  | mentioned schema table aliasName => exact mentions_within (mentions_of_mem_scan trivial he)
  | _ => trivial

theorem trim_subset (s : List Char) : trim s ⊆ s := by
  obtain ⟨lead, trail, split, -⟩ := exists_trim s
  intro c hc
  rw [split]
  exact List.mem_append_right _ (List.mem_append_left _ hc)

theorem scanNamed_within (limit : Int) (levels fuel : Nat) {here : Place} (sub : here.rest ⊆ text) :
    (∀ e ∈ (scanNamed limit levels fuel here).1, e.Within text) ∧
      (scanNamed limit levels fuel here).2 ⊆ text := by
  induction fuel generalizing here with
  | zero => exact ⟨List.forall_mem_nil _, List.Subset.trans (trim_subset _) sub⟩
  | succ fuel ih =>
    rw [scanNamed]
    cases found : cteHead.matchAt? here with
    | none => exact ⟨List.forall_mem_nil _, List.Subset.trans (trim_subset _) sub⟩
    | some m =>
      have stop : m.stop.rest ⊆ text := ((within_of_matchAt? found).mono sub).stop
      cases closed : closing? 1 0 m.stop.rest with
      | none =>
        simp only [closed]
        exact ⟨List.forall_mem_cons.mpr ⟨trivial, fun e he => (scan_within he).mono stop⟩,
          List.nil_subset _⟩
      | some n =>
        have inner : ∀ e ∈ scan limit levels (m.stop.rest.take n), e.Within text := fun e he =>
          (scan_within he).mono (List.Subset.trans (List.take_subset _ _) stop)
        have after : (m.stop.skip (n + 1)).rest ⊆ text := by
          rw [Place.rest_skip]
          exact List.Subset.trans (List.drop_subset _ _) stop
        cases separated : cteSeparator.matchAt? (m.stop.skip (n + 1)) with
        | none =>
          simp only [closed, separated]
          exact ⟨List.forall_mem_cons.mpr ⟨trivial, inner⟩, List.Subset.trans (trim_subset _) after⟩
        | some s =>
          obtain ⟨more, final⟩ := ih ((within_of_matchAt? separated).mono after).stop
          simp only [closed, separated]
          exact ⟨List.forall_mem_append.mpr ⟨List.forall_mem_cons.mpr ⟨trivial, inner⟩, more⟩,
            final⟩

/-- The events of a statement mention names of its text only. -/
theorem scanStatement_within (limit maxDepth : Int) (text : List Char) :
    ∀ e ∈ scanStatement limit maxDepth text, e.Within text := by
  rw [scanStatement]
  cases found : withHead.matchAt? (Place.start text) with
  | none => exact fun e he => scan_within he
  | some head =>
    have stop : head.stop.rest ⊆ text := (within_of_matchAt? found).stop
    obtain ⟨events, final⟩ :=
      scanNamed_within limit (maxDepth - 1).toNat head.stop.rest.length stop
    exact List.forall_mem_append.mpr ⟨events, fun e he => (scan_within he).mono final⟩

/-! ## Findings -/

/-- Findings whose tables have no other characters than a text. -/
structure FindingsWithin (text : List Char) (f : Findings) : Prop where
  tables : ∀ t ∈ f.tables, t.toList ⊆ text
  aliases : ∀ t ∈ f.aliases.map (·.2), t.toList ⊆ text

theorem toList_fullName_subset (dot : '.' ∈ text) {schema : Option String} {table : String}
    (hs : ∀ s ∈ schema, s.toList ⊆ text) (ht : table.toList ⊆ text) :
    (fullName schema table).toList ⊆ text := by
  cases schema with
  | none => exact ht
  | some s =>
    show (s ++ "." ++ table).toList ⊆ text
    rw [String.toList_append, String.toList_append]
    exact List.append_subset.mpr
      ⟨List.append_subset.mpr ⟨hs s rfl, List.cons_subset.mpr ⟨dot, List.nil_subset _⟩⟩, ht⟩

theorem add_within (dot : '.' ∈ text) {f : Findings} (hf : FindingsWithin text f) {e : Event}
    (he : e.Within text) : FindingsWithin text (f.add e) := by
  cases e with
  | defined name => exact ⟨hf.tables, hf.aliases⟩
  | tooDeep => exact hf
  | cutShort => exact hf
  | mentioned schema table aliasName =>
    have full := toList_fullName_subset dot he.1 he.2.1
    rw [Findings.add]
    split
    · exact ⟨hf.tables, hf.aliases⟩
    · refine ⟨List.forall_mem_cons.mpr ⟨full, hf.tables⟩, fun t ht => ?_⟩
      rcases Assoc.mem_values_put ht with rfl | ht
      · exact full
      · cases aliasName with
        | none => exact hf.aliases t ht
        | some a =>
          rcases Assoc.mem_values_put ht with rfl | ht
          · exact full
          · exact hf.aliases t ht

theorem foldl_add_within (dot : '.' ∈ text) {events : List Event}
    (h : ∀ e ∈ events, e.Within text) : FindingsWithin text (events.foldl Findings.add {}) :=
  List.foldlRecOn events Findings.add ⟨List.forall_mem_nil _, List.forall_mem_nil _⟩ fun _ hf e he => add_within dot hf (h e he)

theorem toList_resolve_subset (dot : '.' ∈ text) {f : Findings} (hf : FindingsWithin text f)
    {schema : Option String} {name : String} (hs : ∀ s ∈ schema, s.toList ⊆ text)
    (hn : name.toList ⊆ text) : (f.resolve schema name).toList ⊆ text := by
  rw [Findings.resolve]
  cases found : Assoc.get? (lower name) f.aliases with
  | none => exact toList_fullName_subset dot hs hn
  | some t => exact hf.aliases t (Assoc.mem_values_of_get? found)

end Analysis

/-! ## Reports -/

/-- The names of a pair, and its condition. -/
def JoinedPair.names (j : JoinedPair) : List String :=
  [j.source, j.target] ++ j.condition.toList ++ j.sourceColumn.toList ++ j.targetColumn.toList

/-- All names of a report but the keys of the aliases. -/
def Report.names (r : Report) : List String :=
  r.tables ++ r.joins.flatMap JoinedPair.names ++ r.aliases.map (·.2)

theorem JoinedPair.mapNames_congr {f g : String → String} {j : JoinedPair}
    (same : ∀ name ∈ j.names, f name = g name) : j.mapNames f = j.mapNames g := by
  simp only [JoinedPair.names, List.forall_mem_append, List.forall_mem_cons, Option.mem_toList]
    at same
  obtain ⟨⟨⟨⟨source, target, -⟩, condition⟩, sourceColumn⟩, targetColumn⟩ := same
  rw [JoinedPair.mapNames, JoinedPair.mapNames, source, target, Option.map_congr condition,
    Option.map_congr sourceColumn, Option.map_congr targetColumn]

theorem Report.mapNames_congr {f g : String → String} {r : Report}
    (same : ∀ name ∈ r.names, f name = g name) : r.mapNames f = r.mapNames g := by
  simp only [Report.names, List.forall_mem_append, List.forall_mem_flatMap, List.forall_mem_map]
    at same
  obtain ⟨⟨tables, joins⟩, aliases⟩ := same
  rw [Report.mapNames, Report.mapNames, List.map_congr_left tables,
    List.map_congr_left fun j hj => JoinedPair.mapNames_congr (joins j hj),
    List.map_congr_left fun e he => congrArg (Prod.mk e.1) (aliases e he)]

namespace Analysis

open Pattern Text

variable {text : List Char}

theorem names_relate?_subset (marks : ['.', ' ', '='] ⊆ text) {f : Findings}
    (hf : FindingsWithin text f) {m : Match Part} (hm : MatchWithin text m) {j : JoinedPair}
    (related : f.relate? m = some j) : ∀ name ∈ j.names, name.toList ⊆ text := by
  have dot : '.' ∈ text := marks (by decide)
  have column (slot : Part) : (partText m slot).toList ⊆ text := toList_partText_subset hm slot
  have table (schema name : Part) :
      (f.resolve (partText? m schema) (partText m name)).toList ⊆ text :=
    toList_resolve_subset dot hf (fun s => toList_subset_of_mem_partText? hm) (column name)
  have dotted : ".".toList ⊆ text := List.cons_subset.mpr ⟨dot, List.nil_subset _⟩
  have equals : " = ".toList ⊆ text := List.Subset.trans (by decide) marks
  rw [Findings.relate?] at related
  simp only at related
  split at related
  · cases related
  split at related
  · cases related
  obtain rfl := Option.some.inj related
  simp only [JoinedPair.names, List.forall_mem_append, List.forall_mem_cons, Option.mem_toList,
    Option.some.injEq, forall_eq', String.toList_append, List.append_subset]
  exact ⟨⟨⟨⟨table _ _, table _ _, List.forall_mem_nil _⟩,
    ⟨⟨⟨⟨⟨⟨table _ _, dotted⟩, column _⟩, equals⟩, table _ _⟩, dotted⟩, column _⟩⟩,
    column _⟩, column _⟩

theorem strip_subset (marks : [' ', '\x27'] ⊆ text) {region : Region} {done s : List Char}
    (kept : done ⊆ text) (ahead : s ⊆ text) : strip region done s ⊆ text := by
  fun_induction strip region done s with
  | case1 => exact List.Subset.trans (List.reverse_subset.mpr (List.Subset.refl _)) kept
  | _ => simp_all [List.cons_subset]

theorem unquoteNames_subset {skipped : Nat} {done s : List Char} (kept : done ⊆ text)
    (ahead : s ⊆ text) : unquoteNames skipped done s ⊆ text := by
  fun_induction unquoteNames skipped done s with
  | case1 => exact List.Subset.trans (List.reverse_subset.mpr (List.Subset.refl _)) kept
  | case2 done c rest n ih => exact ih kept (List.cons_subset.mp ahead).2
  | case3 done c rest _ ih =>
    obtain ⟨first, rest⟩ := List.cons_subset.mp ahead
    exact ih (List.cons_subset.mpr ⟨first, kept⟩) rest
  | case4 done c rest _ _ name _ ih =>
    have rest := (List.cons_subset.mp ahead).2
    have word : name ⊆ text := List.Subset.trans (List.takeWhile_subset _) rest
    exact ih (List.append_subset.mpr ⟨List.reverse_subset.mpr word, kept⟩) rest
  | case5 done c rest _ _ name _ ih =>
    obtain ⟨first, rest⟩ := List.cons_subset.mp ahead
    exact ih (List.cons_subset.mpr ⟨first, kept⟩) rest

theorem squeeze_subset (s : List Char) : squeeze s ⊆ ' ' :: s := by
  induction s with
  | nil => exact List.nil_subset _
  | cons c rest ih =>
    have wider : squeeze rest ⊆ ' ' :: c :: rest :=
      List.Subset.trans ih (List.cons_subset_cons _ (List.subset_cons_self c rest))
    rw [squeeze_cons, squeezeOnto]
    split
    · split
      · exact wider
      · exact List.cons_subset.mpr ⟨List.mem_cons_self .., wider⟩
    · exact List.cons_subset.mpr ⟨by simp, wider⟩

/-- What scrubbing writes besides the characters of a text are quotes and spaces. -/
theorem scrubChars_subset (s : List Char) : scrubChars s ⊆ [' ', '\x27'] ++ s := by
  have stripped : strip .code [] s ⊆ [' ', '\x27'] ++ s :=
    strip_subset (List.subset_append_left _ _) (List.nil_subset _) (List.subset_append_right _ _)
  have unquoted : unquoteNames 0 [] (strip .code [] s) ⊆ [' ', '\x27'] ++ s :=
    unquoteNames_subset (List.nil_subset _) stripped
  exact List.Subset.trans (trim_subset _) (List.Subset.trans (squeeze_subset _)
    (List.cons_subset.mpr ⟨List.mem_cons_self .., unquoted⟩))

theorem names_reportOf_subset (marks : ['.', ' ', '='] ⊆ text) (limits : Limits)
    {scrubbed : List Char} (sub : scrubbed ⊆ text) :
    ∀ name ∈ (reportOf limits scrubbed).1.names, name.toList ⊆ text := by
  have events : ∀ e ∈ scanStatement limits.maxMatches limits.maxDepth scrubbed, e.Within text :=
    fun e he => (scanStatement_within _ _ scrubbed e he).mono sub
  have found := foldl_add_within (marks (List.mem_cons_self ..)) events
  rw [reportOf, Report.names]
  simp only [joinsOf, bounded, List.forall_mem_append, List.forall_mem_flatMap]
  refine ⟨⟨fun t ht => found.tables t (mem_uniqueTables ht).1, fun j hj => ?_⟩, found.aliases⟩
  obtain ⟨m, hm, related⟩ := List.mem_filterMap.mp (mem_firstPairs hj).1
  obtain ⟨condition, hc, hm⟩ := List.mem_flatMap.mp hm
  have body := (within_of_mem_findAll (List.mem_of_mem_take hc)).parts .body
  exact names_relate?_subset marks found
    ((within_of_mem_findAll hm).mono (List.Subset.trans body sub)) related

/-- The names of a report have no characters but those of the text, quotes, spaces, dots and equals
signs. -/
theorem names_subset (limits : Limits) (sql : String) :
    ∀ name ∈ (analyze limits sql).1.names,
      name.toList ⊆ [' ', '\x27', '.', '='] ++ sql.toList := by
  have marks : ['.', ' ', '='] ⊆ [' ', '\x27', '.', '='] ++ sql.toList :=
    List.subset_append_of_subset_left _ (by decide)
  have scrubbed : scrubChars sql.toList ⊆ [' ', '\x27', '.', '='] ++ sql.toList :=
    List.Subset.trans (scrubChars_subset _) (List.append_subset.mpr
      ⟨List.subset_append_of_subset_left _ (by decide), List.subset_append_right _ _⟩)
  have names := names_reportOf_subset marks limits scrubbed
  rw [analyze]
  split
  · exact List.forall_mem_nil _
  · cases found : reportOf limits (scrubChars sql.toList)
    rw [found] at names
    exact names

/-! ## Lower case -/

theorem lower_of_ascii {s : String} (ascii : ∀ c ∈ s.toList, c.toNat < 128) :
    lower s = s.toLower := by
  rw [lower, lowerChars_of_ascii ascii, ofList_toLower, String.ofList_toList]

/-- Letter case does not change the analysis of an ASCII text. -/
theorem analyze_lower {limits : Limits} {sql : String} (ascii : ∀ c ∈ sql.toList, c.toNat < 128) :
    analyze limits (lower sql) =
      ((analyze limits sql).1.mapNames lower, (analyze limits sql).2) := by
  have written : ∀ c ∈ [' ', '\x27', '.', '='] ++ sql.toList, c.toNat < 128 :=
    List.forall_mem_append.mpr ⟨by decide, ascii⟩
  have names : ∀ name ∈ (analyze limits sql).1.names, lower name = name.toLower :=
    fun name hn => lower_of_ascii fun c hc => written c (names_subset limits sql name hn hc)
  rw [lower_of_ascii ascii, analyze_toLower, Report.mapNames_congr names]

/-- Orders with their customers, in capitals here and there. -/
def totalsOfCustomers : String :=
  "SELECT O.Total FROM Sales.Orders O JOIN Customers AS C ON o.CustomerId = c.ID"

theorem analyze_lower_totalsOfCustomers :
    let L : Limits := ⟨200000, 5000, 5⟩
    (∀ c ∈ totalsOfCustomers.toList, c.toNat < 128) ∧
      (analyze L totalsOfCustomers).1.joins =
        [⟨"Sales.Orders", "Customers", some "Sales.Orders.CustomerId = Customers.ID",
          some "CustomerId", some "ID"⟩] ∧
      analyze L (lower totalsOfCustomers) =
        ((analyze L totalsOfCustomers).1.mapNames lower, (analyze L totalsOfCustomers).2) := by
  intro L
  have ascii : ∀ c ∈ totalsOfCustomers.toList, c.toNat < 128 := by decide
  exact ⟨ascii, by decide +kernel, analyze_lower ascii⟩

end Analysis

end QueryWorkbench
