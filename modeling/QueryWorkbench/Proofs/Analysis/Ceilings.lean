/-
QueryWorkbench.Proofs.Analysis.Ceilings — analyses under different limits.

What the limits keep an analysis from doing leaves an event behind: a query that is left out, or a
pass that is cut short. Events without these two are `Complete`, and an analysis that warns of
nothing is the analysis under all larger limits (`analyze_eq_of_quiet`).

## How the proof goes

A complete pass has found all its matches (`bounded_of_complete`), and so it finds the same ones
under a larger limit (`bounded_eq`). That goes through the program from the inside out: the passes
over one text (`surface_eq`, `nestedQueries_eq`), a text with its nested queries by induction on the
levels (`scan_eq`), the list of named queries by induction on the fuel (`scanNamed_eq`), and the
whole statement (`scanStatement_eq`). In each step the larger limits give the very same events and
not only as many, so that nothing has to be said of the findings made of them.

The induction on levels needs one fact about the smaller limits only: a scan without a query left
out has either a level to spare or no nested query (`exists_pred_of_shallow`,
`nested_eq_nil_of_complete`).

## The side condition

No warning means that the events are complete (`warningsOf_eq_nil_iff`), and also that the text was
not too long to be read at all, in which case there would be a warning and no event. Limits may be
negative. They are compared as integers and only then made natural numbers, which keeps the order.
-/
import Mathlib.Data.List.Basic
import QueryWorkbench.Analysis.Report

namespace QueryWorkbench.Analysis

open Pattern

/-! ## Limits and warnings -/

/-- Limits that are each at most as large as others. -/
structure Limits.AtMost (L M : Limits) : Prop where
  length : L.maxLength ≤ M.maxLength
  passes : L.maxMatches ≤ M.maxMatches
  depth : L.maxDepth ≤ M.maxDepth

/-- Events without a query left out and without a pass cut short. -/
structure Complete (events : List Event) : Prop where
  deep : .tooDeep ∉ events
  long : .cutShort ∉ events

theorem Complete.mono {events more : List Event} (h : Complete more)
    (sub : ∀ e ∈ events, e ∈ more) : Complete events :=
  ⟨mt (sub _) h.deep, mt (sub _) h.long⟩

theorem complete_append {a b : List Event} : Complete (a ++ b) ↔ Complete a ∧ Complete b := by
  constructor
  · rintro ⟨deep, long⟩
    rw [List.mem_append, not_or] at deep long
    exact ⟨⟨deep.1, long.1⟩, ⟨deep.2, long.2⟩⟩
  · rintro ⟨ha, hb⟩
    exact ⟨by simp [ha.deep, hb.deep], by simp [ha.long, hb.long]⟩

theorem complete_defined {name : String} {events : List Event} :
    Complete (.defined name :: events) ↔ Complete events := by
  rw [← List.singleton_append, complete_append]
  exact ⟨And.right, fun h => ⟨⟨by simp, by simp⟩, h⟩⟩

theorem complete_flatMap {α : Type} {l : List α} {f : α → List Event} :
    Complete (l.flatMap f) ↔ ∀ x ∈ l, Complete (f x) := by
  induction l with
  | nil => exact ⟨fun _ => nofun, fun _ => ⟨nofun, nofun⟩⟩
  | cons x l ih => rw [List.flatMap_cons, complete_append, ih, List.forall_mem_cons]

/-- No warning is given exactly for complete events. -/
theorem warningsOf_eq_nil_iff {limits : Limits} {events : List Event} :
    warningsOf limits events = [] ↔ Complete events := by
  have deep : (events.filter (· = .tooDeep)).map (fun _ => Warning.tooDeep limits.maxDepth) = [] ↔
      .tooDeep ∉ events := by
    rw [List.map_eq_nil_iff, List.filter_eq_nil_iff]
    constructor
    · exact fun h he => h _ he (by simp)
    · intro h e he
      have other : e ≠ .tooDeep := fun same => h (same ▸ he)
      simpa using other
  rw [warningsOf, List.append_eq_nil_iff, deep]
  by_cases cut : .cutShort ∈ events
  · simp only [cut, if_true, List.cons_ne_nil, and_false, false_iff]
    exact fun h => h.long cut
  · simp only [cut, if_false, and_true]
    exact ⟨fun h => ⟨h, cut⟩, Complete.deep⟩

/-! ## One pass -/

section

variable {limit limit' : Int} {text : List Char} {p : Pattern Part}

theorem bounded_of_length_le (enough : (p.findAll text).length ≤ limit.toNat) :
    bounded limit p text = (p.findAll text, []) := by
  simp [bounded, List.take_of_length_le enough, Nat.not_lt.mpr enough]

/-- A pass that is not cut short uses all matches. -/
theorem length_le_of_complete (h : Complete (bounded limit p text).2) :
    (p.findAll text).length ≤ limit.toNat := by
  refine Decidable.byContradiction fun more => h.long ?_
  simp [bounded, Nat.not_le.mp more]

theorem bounded_of_complete (h : Complete (bounded limit p text).2) :
    bounded limit p text = (p.findAll text, []) :=
  bounded_of_length_le (length_le_of_complete h)

/-- A pass that is not cut short is the same under a larger limit. -/
theorem bounded_eq (le : limit ≤ limit') (h : Complete (bounded limit p text).2) :
    bounded limit' p text = bounded limit p text := by
  rw [bounded_of_complete h, bounded_of_length_le]
  exact Nat.le_trans (length_le_of_complete h) (Int.toNat_le_toNat le)

theorem surface_eq (le : limit ≤ limit') (h : Complete (surface limit text)) :
    surface limit' text = surface limit text := by
  simp only [surface, complete_append] at h
  obtain ⟨⟨⟨froms, -⟩, joins⟩, -⟩ := h
  rw [surface, surface, bounded_eq le froms, bounded_eq le joins]

theorem nestedQueries_eq (le : limit ≤ limit') (h : Complete (nestedQueries limit text).2) :
    nestedQueries limit' text = nestedQueries limit text := by
  simp only [nestedQueries, complete_append] at h
  obtain ⟨⟨derived, predicates⟩, scalars⟩ := h
  rw [nestedQueries, nestedQueries, bounded_eq le derived, bounded_eq le predicates,
    bounded_eq le scalars]

/-! ## Whole texts -/

/-- What a scan comes across in a query nested in a text: that it is left out, on the last level. -/
def scanNested (limit : Int) : (levels : Nat) → List Char → List Event
  | 0, _ => [.tooDeep]
  | levels + 1, body => scan limit levels body

/-- A scan comes across the tables of the text, and what it finds in the queries nested in it. -/
theorem mem_scan {levels : Nat} {e : Event} : e ∈ scan limit levels text ↔
    e ∈ surface limit text ∨ e ∈ (nestedQueries limit text).2 ∨
      ∃ n ∈ (nestedQueries limit text).1, e ∈ n.definition ∨ e ∈ scanNested limit levels n.body := by
  cases levels <;> simp [scan, scanNested]

/-- A scan that leaves no query out goes on into every query that it comes to. -/
theorem exists_pred_of_shallow {levels : Nat} (shallow : .tooDeep ∉ scan limit levels text)
    {n : Nested} (hn : n ∈ (nestedQueries limit text).1) :
    ∃ k, levels = k + 1 ∧ ∀ e ∈ scan limit k n.body, e ∈ scan limit levels text := by
  cases levels with
  | zero =>
    have left_out : .tooDeep ∈ scanNested limit 0 n.body := List.mem_singleton.mpr rfl
    exact absurd (mem_scan.mpr (.inr (.inr ⟨n, hn, .inr left_out⟩))) shallow
  | succ k => exact ⟨k, rfl, fun e he => mem_scan.mpr (.inr (.inr ⟨n, hn, .inr he⟩))⟩

/-- A complete scan that follows no query comes across none. -/
theorem nested_eq_nil_of_complete (h : Complete (scan limit 0 text)) :
    (nestedQueries limit text).1 = [] := by
  refine List.eq_nil_iff_forall_not_mem.mpr fun n hn => ?_
  obtain ⟨k, zero, -⟩ := exists_pred_of_shallow h.deep hn
  cases zero

/-- A scan of a text without nested queries is the same for any depth. -/
theorem scan_of_nested_eq_nil (none : (nestedQueries limit text).1 = []) (levels : Nat) :
    scan limit levels text = surface limit text ++ (nestedQueries limit text).2 := by
  cases levels <;> simp [scan, none]

/-- A complete scan is the same under larger limits. -/
theorem scan_eq {levels levels' : Nat} (le : limit ≤ limit') (deep : levels ≤ levels')
    (h : Complete (scan limit levels text)) : scan limit' levels' text = scan limit levels text := by
  induction levels generalizing levels' text with
  | zero =>
    have none := nested_eq_nil_of_complete h
    rw [scan_of_nested_eq_nil none, complete_append] at h
    have same := nestedQueries_eq le h.2
    rw [scan_of_nested_eq_nil none, scan_of_nested_eq_nil (same ▸ none), same, surface_eq le h.1]
  | succ levels ih =>
    obtain ⟨levels', rfl⟩ : ∃ k, levels' = k + 1 := ⟨levels' - 1, by omega⟩
    simp only [scan, complete_append, complete_flatMap] at h
    obtain ⟨⟨tables, cut⟩, nested⟩ := h
    simp only [scan]
    rw [surface_eq le tables, nestedQueries_eq le cut]
    congr 1
    refine List.flatMap_congr fun n hn => ?_
    rw [ih (Nat.le_of_succ_le_succ deep) (nested n hn).2]

/-- The list of named queries gives the same events under larger limits. -/
theorem scanNamed_eq {levels levels' : Nat} (le : limit ≤ limit') (deep : levels ≤ levels')
    {fuel : Nat} {here : Place} (h : Complete (scanNamed limit levels fuel here).1) :
    scanNamed limit' levels' fuel here = scanNamed limit levels fuel here := by
  induction fuel generalizing here with
  | zero => rfl
  | succ fuel ih =>
    simp only [scanNamed] at h ⊢
    cases head : cteHead.matchAt? here with
    | none => rfl
    | some m =>
      rw [head] at h
      cases closed : closing? 1 0 m.stop.rest with
      | none =>
        simp only [closed, complete_defined] at h ⊢
        rw [scan_eq le deep h]
      | some n =>
        cases separated : cteSeparator.matchAt? (m.stop.skip (n + 1)) with
        | none =>
          simp only [closed, separated, complete_defined] at h ⊢
          rw [scan_eq le deep h]
        | some s =>
          simp only [closed, separated, List.cons_append, complete_defined, complete_append] at h ⊢
          rw [scan_eq le deep h.1, ih h.2]

/-- A whole statement gives the same events under larger limits. -/
theorem scanStatement_eq {maxDepth maxDepth' : Int} (le : limit ≤ limit')
    (deep : maxDepth ≤ maxDepth') (h : Complete (scanStatement limit maxDepth text)) :
    scanStatement limit' maxDepth' text = scanStatement limit maxDepth text := by
  simp only [scanStatement] at h ⊢
  cases listed : withHead.matchAt? (Place.start text) with
  | none =>
    rw [listed] at h
    exact scan_eq le (Int.toNat_le_toNat deep) h
  | some head =>
    simp only [listed, complete_append] at h ⊢
    rw [scanNamed_eq le (Int.toNat_le_toNat (by omega)) h.1,
      scan_eq le (Int.toNat_le_toNat deep) h.2]

/-- The joins of a text are the same under a larger limit. -/
theorem joinsOf_eq (le : limit ≤ limit') {f : Findings} (h : Complete (joinsOf limit f text).2) :
    joinsOf limit' f text = joinsOf limit f text := by
  simp only [joinsOf] at h ⊢
  rw [bounded_eq le h]

end

/-! ## Analyses -/

theorem reportOf_eq {L M : Limits} (le : L.AtMost M) {text : List Char}
    (h : Complete (reportOf L text).2) : reportOf M text = reportOf L text := by
  simp only [reportOf, complete_append] at h ⊢
  rw [scanStatement_eq le.passes le.depth h.1, joinsOf_eq le.passes h.2]

/-- An analysis that warns of nothing is the analysis under all larger limits: that warns of
nothing either, and reports the same tables, joins and aliases. -/
theorem analyze_eq_of_quiet {L M : Limits} (le : L.AtMost M) {sql : String}
    (quiet : (analyze L sql).2 = []) :
    (analyze M sql).2 = [] ∧ (analyze M sql).1 = (analyze L sql).1 := by
  have short : ¬ (sql.length : Int) > L.maxLength := by
    intro long
    simp [analyze, long] at quiet
  have short' : ¬ (sql.length : Int) > M.maxLength := by
    have := le.length
    omega
  simp only [analyze, if_neg short, if_neg short'] at quiet ⊢
  have complete := warningsOf_eq_nil_iff.mp quiet
  rw [reportOf_eq le complete]
  exact ⟨warningsOf_eq_nil_iff.mpr complete, rfl⟩

/-- One FROM is found with limits that it just meets. -/
theorem analyze_eq_of_quiet_orders :
    (⟨21, 1, 0⟩ : Limits).AtMost ⟨200000, 5000, 32⟩ ∧
      (analyze ⟨21, 1, 0⟩ "SELECT id FROM orders").2 = [] ∧
      ((analyze ⟨200000, 5000, 32⟩ "SELECT id FROM orders").2 = [] ∧
        (analyze ⟨200000, 5000, 32⟩ "SELECT id FROM orders").1 =
          (analyze ⟨21, 1, 0⟩ "SELECT id FROM orders").1) := by
  have le : (⟨21, 1, 0⟩ : Limits).AtMost ⟨200000, 5000, 32⟩ := ⟨by decide, by decide, by decide⟩
  have quiet : (analyze ⟨21, 1, 0⟩ "SELECT id FROM orders").2 = [] := by decide +kernel
  exact ⟨le, quiet, analyze_eq_of_quiet le quiet⟩

end QueryWorkbench.Analysis
