/-
QueryWorkbench.Proofs.Pattern.Finding — finding all matches of a pattern.

`matchesFrom` is the search for all matches from a place on. It goes over a text part by part: a
part where the pattern does not match is passed over (`matchesFrom_cons`, and for a pattern that
keywords open `Opens.matchesFrom_append`), and a part that a match takes gives that match
(`matchesFrom_take`).
-/
import QueryWorkbench.Proofs.Pattern.Keywords

namespace QueryWorkbench.Pattern

open Text

variable {σ : Type} {p : Pattern σ} {before : Option Char} {position free : Nat}
  {s r w : List Char}

/-- All matches from a place on. -/
def matchesFrom (p : Pattern σ) (before : Option Char) (position : Nat) (s : List Char) :
    List (Match σ) := p.collect 0 [] before position s

theorem findAll_eq (p : Pattern σ) (text : List Char) : p.findAll text = p.matchesFrom none 0 text :=
  rfl

/-! ## What was found before -/

theorem collect_eq (found : List (Match σ)) : p.collect free found before position s =
    found.reverse ++ p.collect free [] before position s := by
  induction s generalizing free found before position with
  | nil => simp [collect]
  | cons c s ih =>
    rw [collect, collect]
    split
    · exact ih _
    · split
      · rename_i m _
        rw [ih, ih [m]]
        simp
      · exact ih _

theorem collect_of_le (le : free ≤ position) :
    p.collect free [] before position s = p.matchesFrom before position s := by
  induction s generalizing before position with
  | nil => rfl
  | cons c s ih =>
    rw [matchesFrom, collect, collect, if_neg (Nat.not_lt.mpr le), if_neg (Nat.not_lt_zero _)]
    split
    · rfl
    · rw [ih (Nat.le_succ_of_le le), matchesFrom]

theorem collect_append (le : position + w.length ≤ free) :
    p.collect free [] before position (w ++ r) =
      p.collect free [] (w.getLast?.or before) (position + w.length) r := by
  induction w generalizing before position with
  | nil => rfl
  | cons c w ih =>
    rw [List.length_cons] at le
    rw [List.cons_append, collect, if_pos (by omega), ih (by omega), getLast?_cons_or,
      List.length_cons, Nat.add_right_comm, Nat.add_assoc]

/-! ## Part by part -/

theorem matchesFrom_cons {c : Char} (none : p.outcomes ⟨before, position, c :: s⟩ = []) :
    p.matchesFrom before position (c :: s) = p.matchesFrom (some c) (position + 1) s := by
  rw [matchesFrom, collect, if_neg (Nat.not_lt_zero _), matchAt?_eq_none none]
  rfl

/-- A pattern that matches nowhere is not found. -/
theorem matchesFrom_eq_nil (none : ∀ a b, s = a ++ b → ∀ before position,
    p.outcomes ⟨before, position, b⟩ = []) : p.matchesFrom before position s = [] := by
  induction s generalizing before position with
  | nil => rfl
  | cons c s ih =>
    rw [matchesFrom_cons (none [] _ rfl _ _)]
    exact ih fun a b split => none (c :: a) b (by rw [split, List.cons_append])

/-- A match takes the part of the text that it goes over. -/
theorem matchesFrom_take {stop : Place} {parts : Kept σ} (nonempty : w ≠ [])
    (h : First p ⟨before, position, w ++ r⟩ stop parts) (length : stop.position = position + w.length) :
    p.matchesFrom before position (w ++ r) = ⟨⟨before, position, w ++ r⟩, stop, parts⟩ ::
      p.matchesFrom (w.getLast?.or before) (position + w.length) r := by
  cases w with
  | nil => exact absurd rfl nonempty
  | cons c w =>
    rw [List.length_cons] at length
    have beyond : max stop.position (position + 1) = position + (w.length + 1) := by omega
    rw [List.cons_append] at h ⊢
    rw [matchesFrom, collect, if_neg (Nat.not_lt_zero _), h.matchAt?]
    show collect p (max stop.position (position + 1)) _ _ _ _ = _
    rw [collect_eq, beyond, collect_append (by omega), getLast?_cons_or, List.length_cons,
      Nat.add_right_comm, Nat.add_assoc, collect_of_le (Nat.le_refl _)]
    rfl

/-- A pattern that keywords open does not match in front of what is of no word. -/
theorem Opens.matchesFrom_edge {ks : List String} (opens : Opens p ks) {c : Char}
    (edge : isWord c = false) :
    p.matchesFrom before position (c :: s) = p.matchesFrom (some c) (position + 1) s := by
  refine matchesFrom_cons (Decidable.byContradiction fun some => ?_)
  obtain ⟨-, k, -, -, nonempty⟩ := opens _ some
  exact nonempty (by simp [leading, edge])

/-- A pattern that keywords open matches nowhere in a part that lacks them. -/
theorem Opens.matchesFrom_append {ks : List String} (opens : Opens p ks) (lacks : Lacks ks s)
    (edge : r.head?.any isWord = false) :
    p.matchesFrom before position (s ++ r) =
      p.matchesFrom (s.getLast?.or before) (position + s.length) r := by
  -- Goes over the rest `t` of the part, `a` being what is behind.
  have walk : ∀ t a position, s = a ++ t → p.matchesFrom (a.getLast?.or before) position (t ++ r) =
      p.matchesFrom (s.getLast?.or before) (position + t.length) r := by
    intro t
    induction t with
    | nil =>
      intro a position split
      rw [split, List.append_nil]
      rfl
    | cons c t ih =>
      intro a position split
      have none : p.outcomes ⟨a.getLast?.or before, position, c :: t ++ r⟩ = [] := by
        refine Decidable.byContradiction fun some => ?_
        obtain ⟨ended, k, hk, spelled, nonempty⟩ := opens _ some
        rw [leading_append edge] at spelled nonempty
        refine lacks.not_spells_leading split ?_ nonempty k hk spelled
        cases last : a.getLast? with
        | none => rfl
        | some d =>
          rw [last] at ended
          exact ended
      rw [List.cons_append] at none ⊢
      rw [matchesFrom_cons none]
      have behind : (a ++ [c]).getLast?.or before = some c := by simp
      rw [← behind, ih (a ++ [c]) (position + 1) (by rw [split, List.append_assoc]; rfl),
        List.length_cons, Nat.add_assoc, Nat.add_comm 1]
  exact walk s [] position rfl

/-- A pattern that keywords open is not found in a text that lacks them. -/
theorem Opens.matchesFrom_eq_nil {ks : List String} (opens : Opens p ks) (lacks : Lacks ks s) :
    p.matchesFrom before position s = [] := by
  have passed := @Opens.matchesFrom_append _ p before position s [] ks opens lacks rfl
  rwa [List.append_nil] at passed

/-! ## The first match -/

theorem First.search? {stop : Place} {parts : Kept σ} (h : First p (.start s) stop parts) :
    p.search? s = some ⟨.start s, stop, parts⟩ := by
  cases s with
  | nil => exact h.matchAt?
  | cons c s =>
    have found : p.matchAt? ⟨none, 0, c :: s⟩ = some ⟨.start (c :: s), stop, parts⟩ := h.matchAt?
    rw [search?, searchFrom?, found]

/-- The first match of a pattern that keywords open is the first of all matches. -/
theorem Opens.search?_eq {ks : List String} (opens : Opens p ks) (text : List Char) :
    p.search? text = (p.matchesFrom none 0 text).head? := by
  have walk : ∀ t before position,
      p.searchFrom? before position t = (p.matchesFrom before position t).head? := by
    intro t
    induction t with
    | nil =>
      intro before position
      have none : p.outcomes ⟨before, position, []⟩ = [] := by
        refine Decidable.byContradiction fun some => ?_
        obtain ⟨-, k, -, -, nonempty⟩ := opens _ some
        exact nonempty rfl
      exact matchAt?_eq_none none
    | cons c t ih =>
      intro before position
      rw [searchFrom?, matchesFrom, collect, if_neg (Nat.not_lt_zero _)]
      cases p.matchAt? ⟨before, position, c :: t⟩ with
      | none => exact ih _ _
      | some m =>
        show some m = (p.collect _ [m] _ _ _).head?
        rw [collect_eq]
        rfl
  exact walk text none 0

/-- A pattern that keywords open is found behind a text that lacks them. -/
theorem Opens.search?_append {ks : List String} (opens : Opens p ks) {front : List Char}
    (lacks : Lacks ks front) (nonempty : w ≠ []) {stop : Place} {parts : Kept σ}
    (h : First p ⟨some ' ', front.length + 1, w ++ r⟩ stop parts)
    (length : stop.position = front.length + 1 + w.length) :
    p.search? (front ++ ' ' :: (w ++ r)) =
      some ⟨⟨some ' ', front.length + 1, w ++ r⟩, stop, parts⟩ := by
  rw [opens.search?_eq, opens.matchesFrom_append lacks (by rfl), opens.matchesFrom_edge (by decide),
    Nat.zero_add, matchesFrom_take nonempty h length]
  rfl

end QueryWorkbench.Pattern
