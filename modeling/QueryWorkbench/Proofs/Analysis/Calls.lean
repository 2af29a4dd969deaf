/-
QueryWorkbench.Proofs.Analysis.Calls — positions inside the parenthesis of a call.

`callPositions` judges positions in one pass. `openAfter` goes over the text for one position, with
the parentheses open there, and a position stands in a call when the innermost of them is no
subquery's; the pass finds just these positions (`mem_callPositions`), in ascending order. A subquery
starts where the word SELECT comes first behind any blanks (`startsSubquery_iff`). In the query of a
parenthesis a position stands in a call exactly if it does in the whole text (`Enclosure.isCall_iff`).
-/
import Mathlib.Data.List.Sort
import QueryWorkbench.Proofs.Analysis.Enclosed

namespace QueryWorkbench.Analysis

open Pattern Text

/-! ## One position -/

/-- The parentheses that are open some characters further on, the innermost first, each marked
whether it is of a call. -/
def openAfter (opened : List Bool) (position : Nat) : Nat → List Char → List Bool
  | n + 1, c :: rest =>
    openAfter (if c = '(' then (!startsSubquery ⟨some c, position + 1, rest⟩) :: opened
      else if c = ')' then opened.drop 1 else opened) (position + 1) n rest
  | _, _ => opened

/-- Whether a position stands directly inside the parenthesis of a call. -/
def isCall (text : List Char) (n : Nat) : Prop := (openAfter [] 0 n text).head? = some true

theorem openAfter_zero {opened : List Bool} {position : Nat} {s : List Char} :
    openAfter opened position 0 s = opened := by
  cases s <;> rfl

theorem openAfter_append {opened : List Bool} {position n : Nat} {a b : List Char} :
    openAfter opened position (a.length + n) (a ++ b) =
      openAfter (openAfter opened position a.length (a ++ b)) (position + a.length) n b := by
  induction a generalizing opened position with
  | nil => rw [List.length_nil, Nat.zero_add, openAfter_zero, Nat.add_zero, List.nil_append]
  | cons c a ih =>
    rw [List.length_cons, Nat.add_right_comm, List.cons_append, openAfter, openAfter, ih,
      Nat.add_right_comm position, Nat.add_assoc position]

/-- Blanks leave the open parentheses as they are. -/
theorem openAfter_of_blank {opened : List Bool} {position : Nat} {a b : List Char}
    (blank : ∀ c ∈ a, isBlank c = true) : openAfter opened position a.length (a ++ b) = opened := by
  induction a generalizing position with
  | nil => exact openAfter_zero
  | cons c a ih =>
    obtain ⟨first, rest⟩ := List.forall_mem_cons.mp blank
    have opening : c ≠ '(' := fun same => absurd (same ▸ first) (by decide)
    have closing : c ≠ ')' := fun same => absurd (same ▸ first) (by decide)
    rw [List.length_cons, List.cons_append, openAfter, if_neg opening, if_neg closing, ih rest]

/-! ## What follows a parenthesis -/

/-- After any blanks the word SELECT comes first. -/
def QueryFollows (s : List Char) : Prop := Spells "SELECT" (leading (s.dropWhile isBlank))

instance (s : List Char) : Decidable (QueryFollows s) :=
  inferInstanceAs (Decidable (Spells "SELECT" (leading (s.dropWhile isBlank))))

/-- A text that starts with a word starts with no blank. -/
theorem head?_isBlank_of_leading {s : List Char} (found : leading s ≠ []) :
    s.head?.any isBlank = false := by
  obtain ⟨r, split, -⟩ := exists_leading_append s
  rw [split]
  exact head?_isBlank_of_isWord found (fun _ => isWord_of_mem_leading) r

/-- A subquery starts wherever a query follows, whatever stands in front. -/
theorem startsSubquery_iff {before : Option Char} {position : Nat} {s : List Char} :
    startsSubquery ⟨before, position, s⟩ = true ↔ QueryFollows s := by
  constructor
  · intro starts
    have some : subqueryStart.outcomes ⟨before, position, s⟩ ≠ [] := by
      intro none
      rw [startsSubquery, matchAt?_eq_none none] at starts
      cases starts
    obtain ⟨o, ho, word⟩ := outcomes_seq_ne_nil.mp some
    obtain ⟨lead, rest, split, blank, rfl⟩ := mem_outcomes_greedy ho
    obtain rfl : s = lead ++ rest := split
    obtain ⟨k, hk, spelled, found⟩ := starts_whole_keyword (by decide) _ word
    obtain rfl := List.mem_singleton.mp hk
    have blank : ∀ c ∈ lead, isBlank c = true := blank
    have solid : rest.head?.any isBlank = false := head?_isBlank_of_leading found
    rw [QueryFollows, dropWhile_append_of_all blank solid]
    exact spelled
  · intro follows
    obtain ⟨r, split, edge⟩ := exists_leading_append (s.dropWhile isBlank)
    have blank : ∀ c ∈ s.takeWhile isBlank, isBlank c = true :=
      List.all_eq_true.mp List.all_takeWhile
    have word : ∀ c ∈ leading (s.dropWhile isBlank), isWord c = true := fun _ => isWord_of_mem_leading
    have nonempty : leading (s.dropWhile isBlank) ≠ [] :=
      ne_nil_of_spells (by decide) (List.mem_singleton.mpr rfl) follows
    rw [QueryFollows] at follows
    rw [← List.takeWhile_append_dropWhile (p := isBlank) (l := s), split]
    generalize s.takeWhile isBlank = lead at blank
    generalize leading (s.dropWhile isBlank) = w at word nonempty follows
    have skipped : First (blanks (σ := Unit)) ⟨before, position, lead ++ (w ++ r)⟩
        ⟨lead.getLast?.or before, position + lead.length, w ++ r⟩ [] :=
      first_greedy blank (head?_isBlank_of_isWord nonempty word r)
    have ended : Place.atWordEdge ⟨w.getLast?.or (lead.getLast?.or before),
        position + lead.length + w.length, r⟩ = true := by
      rw [List.getLast?_eq_some_getLast nonempty]
      simp only [Place.atWordEdge, edge, Option.some_or, Option.any_some,
        word _ (List.getLast_mem nonempty)]
      decide
    have found := skipped.seq ((first_keyword follows).seq (first_wordEdge ended))
    exact Option.isSome_iff_exists.mpr ⟨_, found.matchAt?⟩

/-! ## One pass -/

theorem eraseDups_sublist {α : Type} [BEq α] : ∀ l : List α, l.eraseDups.Sublist l
  | [] => .slnil
  | a :: l => by
    rw [List.eraseDups_cons]
    exact ((eraseDups_sublist _).trans List.filter_sublist).cons_cons a
termination_by l => l.length
decreasing_by
  have := List.length_filter_le (fun b => !b == a) l
  simp only [List.length_cons]
  omega

/-- Ascending positions fall into those up to a position and those behind it. -/
theorem mem_takeWhile_and_drop {pending : List Int} (sorted : pending.Pairwise (· ≤ ·))
    (position x : Int) :
    (x ∈ pending.takeWhile (fun p => p ≤ position) ↔ x ∈ pending ∧ x ≤ position) ∧
      (x ∈ pending.drop (pending.takeWhile fun p => p ≤ position).length ↔
        x ∈ pending ∧ position < x) := by
  induction pending with
  | nil => simp
  | cons p pending ih =>
    obtain ⟨first, sorted⟩ := List.pairwise_cons.mp sorted
    by_cases reached : p ≤ position
    · have := ih sorted
      rw [List.takeWhile_cons_of_pos (by simpa using reached), List.length_cons,
        List.drop_succ_cons, List.mem_cons, List.mem_cons, this.1, this.2]
      constructor
      · constructor
        · rintro (rfl | h)
          · exact ⟨.inl rfl, reached⟩
          · exact ⟨.inr h.1, h.2⟩
        · rintro ⟨rfl | h, le⟩
          · exact .inl rfl
          · exact .inr ⟨h, le⟩
      · constructor
        · exact fun h => ⟨.inr h.1, h.2⟩
        · rintro ⟨rfl | h, lt⟩
          · omega
          · exact ⟨h, lt⟩
    · have behind : ∀ y ∈ p :: pending, position < y := by
        intro y hy
        rcases List.mem_cons.mp hy with rfl | hy
        · omega
        · have := first y hy
          omega
      rw [List.takeWhile_cons_of_neg (by simpa using reached), List.length_nil, List.drop_zero]
      exact ⟨⟨nofun, fun h => absurd h.2 (Int.not_le.mpr (behind x h.1))⟩,
        fun h => ⟨h, behind x h⟩, And.left⟩

/-- The pass finds the positions in calls. -/
theorem mem_callsFrom {opened : List Bool} {pending done : List Int} {position : Nat}
    {text : List Char} (sorted : pending.Pairwise (· ≤ ·)) {x : Int} :
    x ∈ callsFrom opened pending done position text ↔ x ∈ done ∨ x ∈ pending ∧
      (x - position).toNat < text.length ∧
        (openAfter opened position (x - position).toNat text).head? = some true := by
  induction text generalizing opened pending done position with
  | nil => simp [callsFrom]
  | cons c rest ih =>
    rw [callsFrom]
    split
    · rename_i empty
      simp [List.isEmpty_iff.mp empty]
    · obtain ⟨here, later⟩ := mem_takeWhile_and_drop sorted position x
      rw [ih (sorted.sublist (List.drop_sublist ..)), later]
      by_cases reached : x ≤ position
      · have judged : (x - position).toNat = 0 := by omega
        rw [judged, openAfter_zero]
        by_cases call : opened.head? = some true
        · simp [call, here, reached, Int.not_lt.mpr reached, or_comm]
        · simp [call, Int.not_lt.mpr reached]
      · have next : (x - position).toNat = (x - (position + 1 : Nat)).toNat + 1 := by omega
        have found : x ∈ (if opened.head? = some true then
            (pending.takeWhile fun p => p ≤ (position : Int)).reverse ++ done else done) ↔ x ∈ done := by
          split
          · simp [here, reached]
          · rfl
        rw [found, next, List.length_cons, openAfter]
        simp [Int.not_le.mp reached]

theorem pairwise_le_mergeSort (positions : List Int) :
    (positions.mergeSort (· ≤ ·)).Pairwise (· ≤ ·) := by
  have le : (positions.mergeSort (· ≤ ·)).Pairwise fun a b => decide (a ≤ b) = true :=
    List.pairwise_mergeSort (by simp only [decide_eq_true_eq]; omega)
      (by simp only [Bool.or_eq_true, decide_eq_true_eq]; omega) positions
  exact le.imp (by simp)

/-- Of some positions those are found that stand in a call. A negative one does not: nothing is open
in front of the text. -/
theorem mem_callPositions_iff {text : List Char} {positions : List Int} {p : Int} :
    p ∈ callPositions text positions ↔
      p ∈ positions ∧ p.toNat < text.length ∧ isCall text p.toNat := by
  rw [callPositions, mem_callsFrom ((pairwise_le_mergeSort positions).sublist (eraseDups_sublist _)),
    List.mem_eraseDups, (List.mergeSort_perm ..).mem_iff]
  simp [isCall]

theorem mem_callPositions {text : List Char} {positions : List Int} {n : Nat} :
    (n : Int) ∈ callPositions text positions ↔ (n : Int) ∈ positions ∧ n < text.length ∧ isCall text n := by
  rw [mem_callPositions_iff, Int.toNat_natCast]

/-- Ascending positions without repeats ascend strictly. -/
theorem pairwise_lt_eraseDups : ∀ {l : List Int}, l.Pairwise (· ≤ ·) → l.eraseDups.Pairwise (· < ·)
  | [], _ => .nil
  | a :: l, sorted => by
    obtain ⟨first, sorted⟩ := List.pairwise_cons.mp sorted
    rw [List.eraseDups_cons]
    refine .cons (fun b hb => ?_) (pairwise_lt_eraseDups (sorted.filter _))
    obtain ⟨hb, other⟩ := List.mem_filter.mp (List.mem_eraseDups.mp hb)
    have le := first b hb
    have ne : b ≠ a := by simpa using other
    omega
termination_by l => l.length
decreasing_by
  have := List.length_filter_le (fun b => !b == a) l
  simp only [List.length_cons]
  omega

/-- What is found already does not matter for what is found next. -/
theorem callsFrom_eq (opened : List Bool) (pending done : List Int) (position : Nat)
    (text : List Char) : callsFrom opened pending done position text =
      done.reverse ++ callsFrom opened pending [] position text := by
  induction text generalizing opened pending done position with
  | nil => simp [callsFrom]
  | cons c rest ih =>
    rw [callsFrom, callsFrom]
    by_cases empty : pending.isEmpty = true
    · simp [empty]
    · rw [if_neg empty, if_neg empty]
      refine (ih ..).trans (.trans ?_ (congrArg (done.reverse ++ ·) (ih ..).symm))
      split <;> simp

/-- The pass finds positions in the order in which they are pending. -/
theorem callsFrom_sublist (opened : List Bool) (pending : List Int) (position : Nat)
    (text : List Char) : (callsFrom opened pending [] position text).Sublist pending := by
  induction text generalizing opened pending position with
  | nil => exact List.nil_sublist _
  | cons c rest ih =>
    rw [callsFrom]
    split
    · exact List.nil_sublist _
    · have parts : pending.takeWhile (fun p => p ≤ (position : Int)) ++
          pending.drop (pending.takeWhile fun p => p ≤ (position : Int)).length = pending :=
        List.prefix_iff_eq_append.mp (List.takeWhile_prefix _)
      rw [callsFrom_eq]
      refine (List.Sublist.append ?_ (ih ..)).trans (by rw [parts])
      split <;> simp

/-- The positions that are found ascend. -/
theorem pairwise_callPositions (text : List Char) (positions : List Int) :
    (callPositions text positions).Pairwise (· < ·) := by
  have sorted := pairwise_lt_eraseDups (pairwise_le_mergeSort positions)
  rw [callPositions]
  exact sorted.sublist (callsFrom_sublist ..)

/-- The pass with a sort that evaluates. -/
theorem callPositions_eq (text : List Char) (positions : List Int) : callPositions text positions =
    callsFrom [] (positions.insertionSort (· ≤ ·)).eraseDups [] 0 text := by
  rw [callPositions, List.mergeSort_eq_insertionSort]

/-! ## Queries in parentheses -/

theorem contained_subqueryStart : Contained subqueryStart := ⟨by decide, by decide, by decide⟩

/-- A subquery starts in a part of a text as in the whole text. -/
theorem startsSubquery_embeds {shift : Nat} {tail : List Char} {outer inner : Place}
    (closing : ClosingTail tail) (embeds : Place.Embeds shift tail outer inner) :
    startsSubquery outer = startsSubquery inner := by
  rw [startsSubquery, startsSubquery]
  rcases contained_subqueryStart.matchAt?_embeds closing embeds with
    ⟨none, none'⟩ | ⟨m, m', found, found', -⟩
  · rw [none, none']
  · rw [found, found']
    rfl

/-- What is open around a text that closes none of it stays open. -/
theorem openAfter_embeds {shift : Nat} {s tail : List Char} (closing : ClosingTail tail)
    {opened base : List Bool} {position position' n : Nat} (moved : position = position' + shift)
    (unclosed : closing? (opened.length + 1) 0 s = none) (le : n ≤ s.length) :
    openAfter (opened ++ base) position n (s ++ tail) = openAfter opened position' n s ++ base := by
  induction s generalizing opened position position' n with
  | nil =>
    obtain rfl : n = 0 := Nat.le_zero.mp le
    rw [openAfter_zero, openAfter_zero]
  | cons c s ih =>
    cases n with
    | zero => rw [openAfter_zero, openAfter_zero]
    | succ n =>
      replace le : n ≤ s.length := Nat.le_of_succ_le_succ le
      rw [closing?] at unclosed
      rw [List.cons_append, openAfter, openAfter]
      by_cases opening : c = '('
      · subst opening
        rw [if_pos rfl, closing?_eq_none_iff] at unclosed
        have embeds : Place.Embeds shift tail ⟨some '(', position + 1, s ++ tail⟩
            ⟨some '(', position' + 1, s⟩ := ⟨rfl, by simp only; omega, rfl⟩
        have same := startsSubquery_embeds closing embeds
        rw [if_pos rfl, if_pos rfl, same, ← List.cons_append]
        exact ih (by omega) unclosed le
      · rw [if_neg opening] at unclosed
        rw [if_neg opening, if_neg opening]
        by_cases closed : c = ')'
        · subst closed
          rw [if_pos rfl] at unclosed
          rw [if_pos rfl, if_pos rfl]
          cases opened with
          | nil => simp at unclosed
          | cons flag opened =>
            rw [if_neg (by simp only [List.length_cons]; omega), closing?_eq_none_iff] at unclosed
            exact ih (by omega) (by simpa using unclosed) le
        · rw [if_neg closed, closing?_eq_none_iff] at unclosed
          rw [if_neg closed, if_neg closed]
          exact ih (by omega) unclosed le

namespace Enclosure

variable {text : List Char} (e : Enclosure text)

theorem part_ne_nil : leading e.part ≠ [] := ne_nil_of_spells (by decide) (List.mem_singleton.mpr rfl) e.starts

/-- A query starts with a word. -/
theorem exists_first : ∃ c rest, e.part = c :: rest ∧ isWord c = true := by
  cases whole : e.part with
  | nil => exact absurd (by rw [whole]; rfl) e.part_ne_nil
  | cons c rest =>
    refine ⟨c, rest, rfl, Decidable.byContradiction fun outside => e.part_ne_nil ?_⟩
    rw [whole, leading, List.takeWhile_cons_of_neg outside]

/-- The parenthesis around a query is no call's. -/
theorem startsSubquery_eq_true (before : Option Char) (position : Nat) :
    startsSubquery ⟨before, position, e.lead ++ (e.part ++ e.tail)⟩ = true := by
  have word : leading (e.part ++ e.tail) = leading e.part := leading_append e.closing.edge
  have solid : (e.part ++ e.tail).head?.any isBlank = false :=
    head?_isBlank_of_leading (word ▸ e.part_ne_nil)
  rw [startsSubquery_iff, QueryFollows, dropWhile_append_of_all e.blank solid, word]
  exact e.starts

/-- Where the query starts, its parenthesis is the innermost. -/
theorem openAfter_front : ∃ stack, openAfter [] 0 e.front.length text = false :: stack := by
  have split : text = e.outside ++ ('(' :: (e.lead ++ (e.part ++ e.tail))) := by
    have := e.split
    rwa [e.front_eq, List.append_assoc, List.cons_append] at this
  have length : e.front.length = e.outside.length + (e.lead.length + 1) := by
    rw [e.front_eq, List.length_append, List.length_cons]
  refine ⟨openAfter [] 0 e.outside.length text, ?_⟩
  calc openAfter [] 0 e.front.length text
      = openAfter [] 0 (e.outside.length + (e.lead.length + 1))
          (e.outside ++ '(' :: (e.lead ++ (e.part ++ e.tail))) := by rw [length, ← split]
    _ = false :: openAfter [] 0 e.outside.length text := by
        rw [openAfter_append, openAfter, if_pos rfl, e.startsSubquery_eq_true,
          openAfter_of_blank e.blank, ← split]
        rfl

/-- In the query of a parenthesis calls are those of the whole text. -/
theorem isCall_iff {a b : List Char} (place : e.part = a ++ b) :
    isCall text (e.front.length + a.length) ↔ isCall e.part a.length := by
  obtain ⟨stack, outer⟩ := e.openAfter_front
  have within : a.length ≤ e.part.length := by
    rw [place, List.length_append]
    exact Nat.le_add_right _ _
  have opened : openAfter [] 0 (e.front.length + a.length) text =
      openAfter [] 0 a.length e.part ++ false :: stack :=
    calc openAfter [] 0 (e.front.length + a.length) text
        = openAfter [] 0 (e.front.length + a.length) (e.front ++ (e.part ++ e.tail)) :=
          congrArg _ e.split
      _ = openAfter (openAfter [] 0 e.front.length text) (0 + e.front.length) a.length
            (e.part ++ e.tail) := by rw [openAfter_append, ← e.split]
      _ = openAfter [] 0 a.length e.part ++ false :: stack := by
          rw [outer, Nat.zero_add]
          exact @openAfter_embeds _ _ _ e.closing [] _ _ _ _ (Nat.zero_add _).symm e.unclosed within
  rw [isCall, isCall, opened, List.head?_append]
  cases openAfter [] 0 a.length e.part <;> simp

end Enclosure

end QueryWorkbench.Analysis
