/-
QueryWorkbench.Proofs.Pattern.LetterCase — patterns that do not tell capitals from small letters.

A pattern whose sets of characters name no letter except those of keywords (`Pattern.ignoresCase`)
matches in a text with small letters as it matches in the text: at the same positions, with the same
parts in small letters. `outcomes_lowered` is the induction on the pattern; the rest follows it
through the search for matches.
-/
import QueryWorkbench.Proofs.Pattern.Outcomes
import QueryWorkbench.Proofs.Text.LetterCase

namespace QueryWorkbench

open Text

variable {σ : Type}

/-! ## Patterns without letters -/

/-- A set that a character is in if its small letter is. -/
def CharSet.ignoresCase : CharSet → Bool
  | .exact c => !c.isAlpha
  | .except cs => cs.all fun c => !c.isAlpha
  | _ => true

theorem CharSet.has_toLower {set : CharSet} (h : set.ignoresCase = true) (c : Char) :
    set.has c.toLower = set.has c := by
  cases set with
  | letter k => rw [has, has, keywordLetter_toLower]
  | exact k =>
    have same := toLower_eq_iff (Bool.not_eq_true' _ |>.mp h) (c := c)
    rw [has, has, Bool.eq_iff_iff, beq_iff_eq, beq_iff_eq, same]
  | word => exact isWord_toLower c
  | blank => exact isBlank_toLower c
  | digit => exact isDigit_toLower c
  | any => rfl
  | except cs =>
    have none : ∀ k ∈ cs, k.isAlpha = false := by simpa [ignoresCase] using h
    have same : cs.contains c.toLower = cs.contains c := by
      rw [Bool.eq_iff_iff, List.contains_iff_mem, List.contains_iff_mem]
      constructor
      · intro here
        rwa [(toLower_eq_iff (none _ here)).mp rfl]
      · intro here
        rwa [(toLower_eq_iff (none _ here)).mpr rfl]
    rw [has, has, same]

/-- A pattern all of whose sets ignore case. -/
def Pattern.ignoresCase : Pattern σ → Bool
  | .one set | .greedy set | .lazy set => set.ignoresCase
  | .seq first second | .or first second => first.ignoresCase && second.ignoresCase
  | .option inner | .keep _ inner | .ahead inner | .notAhead inner => inner.ignoresCase
  | .nothing | .wordEdge | .finish => true

/-! ## Places and matches in small letters -/

/-- A place of the text with small letters. -/
def Place.lowered (p : Place) : Place :=
  ⟨p.before.map Char.toLower, p.position, p.rest.map Char.toLower⟩

/-- A span of the text with small letters. -/
def Span.lowered (s : Span) : Span := ⟨s.start.lowered, s.length⟩

/-- Parts kept of the text with small letters. -/
def Kept.lowered (k : Kept σ) : Kept σ := k.map fun e => (e.1, e.2.lowered)

/-- A match in the text with small letters. -/
def Match.lowered (m : Match σ) : Match σ := ⟨m.start.lowered, m.stop.lowered, Kept.lowered m.kept⟩

theorem Place.start_lowered (text : List Char) :
    Place.start (text.map Char.toLower) = (Place.start text).lowered := rfl

theorem Place.atWordEdge_lowered (p : Place) : p.lowered.atWordEdge = p.atWordEdge := by
  simp only [atWordEdge, lowered, List.head?_map, Option.any_map, isWord_toLower]

theorem Place.skip_lowered (n : Nat) (p : Place) : p.lowered.skip n = (p.skip n).lowered := by
  induction n generalizing p with
  | zero => rfl
  | succ n ih =>
    obtain ⟨before, position, rest⟩ := p
    cases rest with
    | nil => rfl
    | cons c rest => exact ih ⟨some c, position + 1, rest⟩

theorem Span.chars_lowered (s : Span) : s.lowered.chars = s.chars.map Char.toLower :=
  List.map_take.symm

theorem Kept.lowered_append (k l : Kept σ) :
    Kept.lowered (k ++ l) = Kept.lowered k ++ Kept.lowered l := List.map_append

theorem Kept.get?_lowered [DecidableEq σ] (slot : σ) (k : Kept σ) :
    Assoc.get? slot (Kept.lowered k) = (Assoc.get? slot k).map Span.lowered := by
  induction k with
  | nil => rfl
  | cons e rest ih =>
    obtain ⟨s, span⟩ := e
    by_cases here : s = slot
    · simp [Kept.lowered, Assoc.get?, here]
    · simpa [Kept.lowered, Assoc.get?, here] using ih

theorem Match.part?_lowered [DecidableEq σ] (m : Match σ) (slot : σ) :
    m.lowered.part? slot = (m.part? slot).map (List.map Char.toLower) := by
  simp only [part?, lowered, Kept.get?_lowered, Option.map_map, Function.comp_def,
    Span.chars_lowered]

theorem Match.part_lowered [DecidableEq σ] (m : Match σ) (slot : σ) :
    m.lowered.part slot = (m.part slot).map Char.toLower := by
  rw [part, part, part?_lowered]
  cases m.part? slot <;> rfl

/-! ## Matching -/

theorem greedyEnds_lowered {set : CharSet} (h : set.ignoresCase = true) (position : Nat)
    (s : List Char) (nearer : List Place) :
    greedyEnds set position (s.map Char.toLower) (nearer.map Place.lowered) =
      (greedyEnds set position s nearer).map Place.lowered := by
  induction s generalizing position nearer with
  | nil => rfl
  | cons c rest ih =>
    rw [List.map_cons, greedyEnds, greedyEnds, CharSet.has_toLower h]
    split
    · exact ih (position + 1) (⟨some c, position + 1, rest⟩ :: nearer)
    · rfl

theorem lazyEnds_lowered {set : CharSet} (h : set.ignoresCase = true) (before : Option Char)
    (position : Nat) (s : List Char) :
    lazyEnds set (before.map Char.toLower) position (s.map Char.toLower) =
      (lazyEnds set before position s).map Place.lowered := by
  induction s generalizing before position with
  | nil => rfl
  | cons c rest ih =>
    rw [List.map_cons, lazyEnds, lazyEnds, CharSet.has_toLower h, List.map_cons]
    split
    · rw [← ih (some c) (position + 1)]
      rfl
    · rfl

namespace Pattern

/-- Every way to match is a way to match in small letters, in the same order. -/
theorem outcomes_lowered {p : Pattern σ} (h : p.ignoresCase = true) (here : Place) :
    p.outcomes here.lowered =
      (p.outcomes here).map fun o => (o.1.lowered, Kept.lowered o.2) := by
  induction p generalizing here with
  | nothing => rfl
  | one set =>
    obtain ⟨before, position, rest⟩ := here
    cases rest with
    | nil => rfl
    | cons c rest =>
      show (if set.has c.toLower then _ else _) = List.map _ (if set.has c then _ else _)
      rw [CharSet.has_toLower h]
      split <;> rfl
  | seq first second ih₁ ih₂ =>
    rw [ignoresCase, Bool.and_eq_true] at h
    simp only [outcomes, ih₁ h.1, ih₂ h.2, List.flatMap_map, List.map_flatMap, List.map_map,
      Function.comp_def, Kept.lowered_append]
  | or first second ih₁ ih₂ =>
    rw [ignoresCase, Bool.and_eq_true] at h
    rw [outcomes, outcomes, ih₁ h.1, ih₂ h.2, List.map_append]
  | option inner ih =>
    rw [outcomes, outcomes, ih h, List.map_append]
    rfl
  | greedy set =>
    rw [outcomes, outcomes, List.map_map]
    have ends := greedyEnds_lowered h here.position here.rest [here]
    rw [List.map_singleton] at ends
    show List.map _ (greedyEnds set here.position (here.rest.map Char.toLower) [here.lowered]) = _
    rw [ends, List.map_map]
    rfl
  | lazy set =>
    rw [outcomes, outcomes, List.map_map]
    show List.map _ (lazyEnds set (here.before.map Char.toLower) here.position
      (here.rest.map Char.toLower)) = _
    rw [lazyEnds_lowered h, List.map_map]
    rfl
  | keep slot inner ih =>
    rw [outcomes, outcomes, ih h, List.map_map, List.map_map]
    rfl
  | ahead inner ih =>
    rw [outcomes, outcomes, ih h]
    cases inner.outcomes here <;> rfl
  | notAhead inner ih =>
    rw [outcomes, outcomes, ih h, List.isEmpty_map]
    split <;> rfl
  | wordEdge =>
    rw [outcomes, outcomes, Place.atWordEdge_lowered]
    split <;> rfl
  | finish =>
    rw [outcomes, outcomes]
    show (if (here.rest.map Char.toLower).isEmpty then _ else _) = _
    rw [List.isEmpty_map]
    split <;> rfl

theorem matchAt?_lowered {p : Pattern σ} (h : p.ignoresCase = true) (here : Place) :
    p.matchAt? here.lowered = (p.matchAt? here).map Match.lowered := by
  rw [matchAt?_eq_head?, matchAt?_eq_head?, outcomes_lowered h]
  cases p.outcomes here <;> rfl

theorem collect_lowered {p : Pattern σ} (h : p.ignoresCase = true) (free : Nat)
    (found : List (Match σ)) (before : Option Char) (position : Nat) (s : List Char) :
    p.collect free (found.map Match.lowered) (before.map Char.toLower) position
        (s.map Char.toLower) =
      (p.collect free found before position s).map Match.lowered := by
  induction s generalizing free found before position with
  | nil => rw [List.map_nil, collect, collect, List.map_reverse]
  | cons c rest ih =>
    have next : p.matchAt? ⟨before.map Char.toLower, position, c.toLower :: rest.map Char.toLower⟩ =
        (p.matchAt? ⟨before, position, c :: rest⟩).map Match.lowered :=
      matchAt?_lowered h ⟨before, position, c :: rest⟩
    rw [List.map_cons, collect, collect, next]
    split
    · exact ih free found (some c) (position + 1)
    · cases p.matchAt? ⟨before, position, c :: rest⟩ with
      | none => exact ih free found (some c) (position + 1)
      | some m => exact ih _ (m :: found) (some c) (position + 1)

/-- The matches in a text with small letters. -/
theorem findAll_lowered {p : Pattern σ} (h : p.ignoresCase = true) (text : List Char) :
    p.findAll (text.map Char.toLower) = (p.findAll text).map Match.lowered :=
  collect_lowered h 0 [] none 0 text

end Pattern

end QueryWorkbench
