/-
QueryWorkbench.Proofs.Text.Quotation — quoted text read up to its end.

Inside quotes the closing quote is written twice, so the first one that stands alone is the end.
`untilQuote?` and `quotation?` read that way, and they accept exactly what doubling writes, with
nothing behind it that would go on with the quote (`quotation?_eq_some_iff`). `Paired` are the
texts that doubling can have written (`paired_iff`).
-/
import QueryWorkbench.Text.Doubled

namespace QueryWorkbench.Text

variable {quote opening closing : Char} {s t rest : List Char}

/-! ## Reading -/

/-- Reads up to the first quote that stands alone, taking two in a row for one character: the text
in front of it, and what is behind it. -/
def untilQuote? (quote : Char) : List Char → Option (List Char × List Char)
  | [] => none
  | [c] => if c = quote then some ([], []) else none
  | c :: d :: rest =>
    if c = quote then
      if d = quote then (untilQuote? quote rest).map fun (s, behind) => (quote :: s, behind)
      else some ([], d :: rest)
    else (untilQuote? quote (d :: rest)).map fun (s, behind) => (c :: s, behind)

/-- Reads a text between quotes: the text, and what is behind the closing quote. -/
def quotation? (opening closing : Char) : List Char → Option (List Char × List Char)
  | [] => none
  | c :: rest => if c = opening then untilQuote? closing rest else none

theorem untilQuote?_quote (ended : rest.head? ≠ some quote) :
    untilQuote? quote (quote :: rest) = some ([], rest) := by
  cases rest with
  | nil => simp [untilQuote?]
  | cons d rest =>
    have other : d ≠ quote := fun same => ended (congrArg some same)
    simp [untilQuote?, other]

theorem untilQuote?_cons_of_ne {c : Char} (other : c ≠ quote) :
    untilQuote? quote (c :: rest) = (untilQuote? quote rest).map fun (s, behind) =>
      (c :: s, behind) := by
  cases rest <;> simp [untilQuote?, other]

/-- Doubled text is read up to the quote behind it. -/
theorem untilQuote?_doubled (s : List Char) (ended : rest.head? ≠ some quote) :
    untilQuote? quote (doubled quote s ++ quote :: rest) = some (s, rest) := by
  induction s with
  | nil => exact untilQuote?_quote ended
  | cons c s ih =>
    by_cases same : c = quote
    · rw [doubled, if_pos same, List.cons_append, List.cons_append, untilQuote?, if_pos rfl,
        if_pos rfl, ih, same]
      rfl
    · rw [doubled, if_neg same, List.cons_append, untilQuote?_cons_of_ne same, ih]
      rfl

/-- Only doubled text is read, and the quote behind it stands alone. -/
theorem eq_doubled_of_untilQuote? (read : untilQuote? quote t = some (s, rest)) :
    t = doubled quote s ++ quote :: rest ∧ rest.head? ≠ some quote := by
  fun_induction untilQuote? quote t generalizing s with
  | case1 => cases read
  | case2 => simp_all [doubled]
  | case3 => cases read
  | case4 more ih =>
    obtain ⟨⟨x, behind⟩, inner, same⟩ := Option.map_eq_some_iff.mp read
    obtain ⟨rfl, rfl⟩ := Prod.mk.inj same
    obtain ⟨split, ended⟩ := ih inner
    exact ⟨by rw [split, doubled, if_pos rfl]; rfl, ended⟩
  | case5 d more other =>
    obtain ⟨rfl, rfl⟩ := Prod.mk.inj (Option.some.inj read)
    exact ⟨rfl, fun same => other (Option.some.inj same)⟩
  | case6 c d more other ih =>
    obtain ⟨⟨x, behind⟩, inner, same⟩ := Option.map_eq_some_iff.mp read
    obtain ⟨rfl, rfl⟩ := Prod.mk.inj same
    obtain ⟨split, ended⟩ := ih inner
    exact ⟨by rw [split, doubled, if_neg other]; rfl, ended⟩

/-- What is read between quotes is what doubling wrote there. -/
theorem quotation?_eq_some_iff : quotation? opening closing t = some (s, rest) ↔
    t = opening :: (doubled closing s ++ closing :: rest) ∧ rest.head? ≠ some closing := by
  constructor
  · intro read
    cases t with
    | nil => cases read
    | cons c t =>
      rw [quotation?] at read
      split at read
      · rename_i first
        obtain ⟨split, ended⟩ := eq_doubled_of_untilQuote? read
        exact ⟨by rw [first, split], ended⟩
      · cases read
  · rintro ⟨rfl, ended⟩
    rw [quotation?, if_pos rfl, untilQuote?_doubled s ended]

/-! ## Quotes in pairs -/

/-- A text in which a quote only stands next to another one, pair by pair. -/
inductive Paired (quote : Char) : List Char → Prop
  | nil : Paired quote []
  | other {c : Char} {s : List Char} (other : c ≠ quote) : Paired quote s → Paired quote (c :: s)
  | pair {s : List Char} : Paired quote s → Paired quote (quote :: quote :: s)

theorem paired_doubled (s : List Char) : Paired quote (doubled quote s) := by
  induction s with
  | nil => exact .nil
  | cons c s ih =>
    rw [doubled]
    split
    · exact .pair ih
    · exact .other ‹_› ih

/-- Quotes stand in pairs where they have been written twice. -/
theorem paired_iff : Paired quote t ↔ ∃ s, t = doubled quote s := by
  constructor
  · intro h
    induction h with
    | nil => exact ⟨[], rfl⟩
    | @other c _ other _ ih =>
      obtain ⟨s, rfl⟩ := ih
      exact ⟨c :: s, by rw [doubled, if_neg other]⟩
    | pair _ ih =>
      obtain ⟨s, rfl⟩ := ih
      exact ⟨quote :: s, by rw [doubled, if_pos rfl]⟩
  · rintro ⟨s, rfl⟩
    exact paired_doubled s

/-- Where the end of quoted text is not found, its quotes stand in pairs up to the end. -/
theorem paired_of_untilQuote? (none : untilQuote? quote t = none) : Paired quote t := by
  fun_induction untilQuote? quote t with
  | case1 => exact .nil
  | case2 => cases none
  | case3 _ other => exact .other other .nil
  | case4 more ih => exact .pair (ih (Option.map_eq_none_iff.mp none))
  | case5 => cases none
  | case6 c d more other ih => exact .other other (ih (Option.map_eq_none_iff.mp none))

end QueryWorkbench.Text
