/-
QueryWorkbench.Proofs.Sql.Layout — the layout decides only what stands between fragments.

The compact and the pretty text of a query have the same pieces in the same order. In the compact
text a single space stands between two pieces, and in the pretty text one or more spaces and line
breaks (`exists_fragments_generate`).

## How the proof goes

A query has one list of fragments, whatever the layout, and in it the text of a nested query is one
fragment, which is compact in both. A fragment has a phrase and the gap in front of it. `laidOut`
puts texts and gaps together, and `render_eq_laidOut` takes a rendered text apart into the texts of
the phrases, which the layout does not change, and its gaps; the first fragment has none. In the
compact layout every gap is one space, and putting texts together with these is intercalating a
space (`laidOut_replicate`).

There are no hypotheses. A query always has a fragment, because SELECT is written also where nothing
is selected (`fragments_ne_nil`). What the pieces are made of does not matter: a literal or a name
may hold blanks of its own, and these are in both texts.
-/
import QueryWorkbench.Sql.Generate

namespace QueryWorkbench.Sql

/-- Texts one after the other, with a gap between any two. -/
def laidOut : (texts gaps : List String) → String
  | [], _ => ""
  | text :: _, [] => text
  | text :: rest, gap :: gaps => text ++ gap ++ laidOut rest gaps

/-- The same gap everywhere is a separator. -/
theorem laidOut_replicate (separator text : String) (rest : List String) :
    laidOut (text :: rest) (List.replicate rest.length separator) =
      separator.intercalate (text :: rest) := by
  induction rest generalizing text with
  | nil => rw [String.intercalate_singleton, List.length_nil, List.replicate_zero, laidOut]
  | cons next rest ih =>
    rw [List.length_cons, List.replicate_succ, laidOut, ih, String.intercalate_cons_cons]

variable (d : Dialect)

/-- Rendered fragments are their texts with the gaps of the layout between them. -/
theorem render_eq_laidOut (layout : Layout) (f : Fragment) (rest : List Fragment) :
    render d layout (f :: rest) =
      laidOut ((f :: rest).map (·.phrase.text d)) (rest.map (·.gap.text layout)) := by
  induction rest generalizing f with
  | nil => rw [render, List.map_nil, String.join_nil, String.append_empty]; rfl
  | cons g rest ih =>
    have more := ih g
    rw [render] at more
    rw [render, List.map_cons, String.join_cons, String.append_assoc, more]
    simp only [List.map_cons, laidOut, String.append_assoc]

/-- Every level selects something, so it has a fragment. -/
theorem fragments_ne_nil (c : Clauses String) : fragments d c ≠ [] := by
  have selects (aliases : List (String × String)) (top : Option Nat) :
      selectFragments aliases c.fields top ≠ [] := by
    cases top <;> simp [selectFragments, selectHead, row]
  simp [fragments, selects]

/-- A query has one list of fragments for both layouts: the compact layout puts one space between
any two, the pretty one puts spaces and line breaks there. -/
theorem exists_fragments_generate (q : Query) : ∃ texts gaps : List String,
    gaps.length + 1 = texts.length ∧
      (∀ gap ∈ gaps, gap ≠ "" ∧ ∀ c ∈ gap.toList, c = ' ' ∨ c = '\n') ∧
      generate d .compact q = " ".intercalate texts ∧
      generate d .pretty q = laidOut texts gaps := by
  obtain ⟨f, rest, split⟩ := List.exists_cons_of_ne_nil
    (fragments_ne_nil d (q.clauses.map (compactText d)))
  have same : queryFragments d q = f :: rest := split
  have blank (gap : Gap) : gap.text .pretty ≠ "" ∧
      ∀ c ∈ (gap.text .pretty).toList, c = ' ' ∨ c = '\n' := by
    cases gap <;> simp [Gap.text]
  have spaces : rest.map (·.gap.text .compact) =
      List.replicate (rest.map (·.phrase.text d)).length " " := by
    rw [List.length_map, ← List.map_const']
    rfl
  refine ⟨(f :: rest).map (·.phrase.text d), rest.map (·.gap.text .pretty), ?_, ?_, ?_, ?_⟩
  · rw [List.length_map, List.length_map, List.length_cons]
  · intro gap hgap
    obtain ⟨g, -, rfl⟩ := List.mem_map.mp hgap
    exact blank g.gap
  · rw [generate, same, render_eq_laidOut, spaces, List.map_cons, laidOut_replicate]
  · rw [generate, same, render_eq_laidOut]

end QueryWorkbench.Sql
