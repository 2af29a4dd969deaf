/-
QueryWorkbench.Proofs.Pattern.Locality — ways to match in a part of a text.

A place in a part of a text is also a place in the whole text (`Embeds`): something may stand
before the part, and a tail behind it. A pattern matches in the whole text as in the part, except
for the ways that go on into the tail (`outcomes_embeds`). This needs that the tail does not go on
with a word and that conditions on what follows look at words only (`isLocal`).
-/
import Mathlib.Data.List.Forall2
import QueryWorkbench.Proofs.Pattern.Keywords

namespace QueryWorkbench

open Text

/-! ## Places in a part of a text -/

/-- A place of a whole text that is a place of a part of it, `shift` characters after the start,
with `tail` behind the part. -/
structure Place.Embeds (shift : Nat) (tail : List Char) (outer inner : Place) : Prop where
  rest : outer.rest = inner.rest ++ tail
  position : outer.position = inner.position + shift
  before : outer.before.any isWord = inner.before.any isWord

/-- Parts kept in the whole text that are those kept in a part of it. -/
def KeptEmbeds {σ : Type} (shift : Nat) (tail : List Char) : Kept σ → Kept σ → Prop :=
  List.Forall₂ fun a b => a.1 = b.1 ∧ a.2.length = b.2.length ∧
    b.2.length ≤ b.2.start.rest.length ∧ Place.Embeds shift tail a.2.start b.2.start

/-- A way to match in the whole text that is one in a part of it. -/
def OutcomeEmbeds {σ : Type} (shift : Nat) (tail : List Char) (o o' : Place × Kept σ) : Prop :=
  Place.Embeds shift tail o.1 o'.1 ∧ KeptEmbeds shift tail o.2 o'.2

/-- Whether a place has a whole tail in front of it. -/
def Place.infront (tail : List Char) (here : Place) : Bool := tail.length ≤ here.rest.length

section

variable {shift : Nat} {tail : List Char} {outer inner : Place}

theorem Place.Embeds.infront (h : Place.Embeds shift tail outer inner) :
    outer.infront tail = true := by
  simp [Place.infront, h.rest]

/-- A way that ends in front of the tail is left by the filter. -/
theorem Place.Embeds.filter_singleton {σ : Type} {kept kept' : Kept σ}
    (h : Place.Embeds shift tail outer inner) (same : KeptEmbeds shift tail kept kept') :
    List.Forall₂ (OutcomeEmbeds shift tail) ([(outer, kept)].filter (·.1.infront tail))
      [(inner, kept')] := by
  rw [List.filter_cons_of_pos (by exact h.infront)]
  exact .cons ⟨h, same⟩ .nil

/-- The edges of words are the same when the tail does not go on with a word. -/
theorem Place.Embeds.atWordEdge (h : Place.Embeds shift tail outer inner)
    (edge : tail.head?.any isWord = false) : outer.atWordEdge = inner.atWordEdge := by
  rw [Place.atWordEdge, Place.atWordEdge, h.before, h.rest]
  cases inner.rest with
  | nil => simp [edge]
  | cons c rest => rfl

/-- One character further on. -/
theorem Place.Embeds.next {before before' : Option Char} {position position' : Nat} {c : Char}
    {rest : List Char}
    (h : Place.Embeds shift tail ⟨before, position, c :: rest ++ tail⟩ ⟨before', position', c :: rest⟩) :
    Place.Embeds shift tail ⟨some c, position + 1, rest ++ tail⟩ ⟨some c, position' + 1, rest⟩ := by
  have position := h.position
  exact ⟨rfl, by simp only at position ⊢; omega, rfl⟩

theorem Place.rest_skip (n : Nat) (here : Place) : (here.skip n).rest = here.rest.drop n := by
  induction n generalizing here with
  | zero => rfl
  | succ n ih =>
    obtain ⟨before, position, rest⟩ := here
    cases rest with
    | nil => rfl
    | cons c rest => exact ih _

/-- The same number of characters further on, within the part. -/
theorem Place.Embeds.skip {n : Nat} (h : Place.Embeds shift tail outer inner)
    (within : n ≤ inner.rest.length) : Place.Embeds shift tail (outer.skip n) (inner.skip n) := by
  induction n generalizing outer inner with
  | zero => exact h
  | succ n ih =>
    obtain ⟨before', position', rest'⟩ := inner
    obtain ⟨before, position, rest⟩ := outer
    obtain rfl : rest = rest' ++ tail := h.rest
    cases rest' with
    | nil => simp at within
    | cons c rest' => exact ih h.next (by simpa using within)

end

/-! ## Ends of repetitions -/

section

variable {shift : Nat} {tail : List Char} {set : CharSet}

/-- In the tail a repetition only adds ends there. -/
theorem filter_greedyEnds_of_length_le {position : Nat} {s : List Char} {nearer : List Place}
    (short : s.length ≤ tail.length) :
    (greedyEnds set position s nearer).filter (·.infront tail) =
      nearer.filter (·.infront tail) := by
  induction s generalizing position nearer with
  | nil => rfl
  | cons c s ih =>
    rw [List.length_cons] at short
    rw [greedyEnds]
    split
    · rw [ih (by omega), List.filter_cons_of_neg]
      simp [Place.infront]
      omega
    · rfl

theorem greedyEnds_embeds {position position' : Nat} {s : List Char} {nearer nearer' : List Place}
    (moved : position = position' + shift)
    (h : List.Forall₂ (Place.Embeds shift tail) (nearer.filter (·.infront tail)) nearer') :
    List.Forall₂ (Place.Embeds shift tail)
      ((greedyEnds set position (s ++ tail) nearer).filter (·.infront tail))
      (greedyEnds set position' s nearer') := by
  induction s generalizing position position' nearer nearer' with
  | nil =>
    rw [List.nil_append, filter_greedyEnds_of_length_le (Nat.le_refl _)]
    exact h
  | cons c s ih =>
    rw [List.cons_append, greedyEnds, greedyEnds]
    split
    · refine ih (by omega) ?_
      have here : Place.Embeds shift tail ⟨some c, position + 1, s ++ tail⟩ ⟨some c, position' + 1, s⟩ :=
        ⟨rfl, by simp only; omega, rfl⟩
      rw [List.filter_cons_of_pos here.infront]
      exact .cons here h
    · exact h

end

/-- Sets with characters of words only. -/
def CharSet.ofWords : CharSet → Bool
  | letter c | exact c => isWord c
  | word => true
  | _ => false

theorem CharSet.isWord_of_ofWords {set : CharSet} (words : set.ofWords = true) {c : Char}
    (taken : set.has c = true) : isWord c = true := by
  cases set with
  | letter k =>
    obtain rfl : keywordLetter c = k := by simpa [has] using taken
    exact isWord_keywordLetter c ▸ words
  | exact k =>
    obtain rfl : c = k := by simpa [has] using taken
    exact words
  | word => exact taken
  | _ => cases words

namespace Pattern

variable {σ : Type}

/-! ## Patterns that see only what is near -/

/-- Whether a pattern takes characters of words only. -/
def takesWords : Pattern σ → Bool
  | nothing | wordEdge => true
  | one set | greedy set => set.ofWords
  | seq first second | or first second => first.takesWords && second.takesWords
  | option inner | keep _ inner => inner.takesWords
  | _ => false

/-- Whether a pattern looks ahead at words only. -/
def isLocal : Pattern σ → Bool
  | nothing | one _ | greedy _ | wordEdge => true
  | seq first second | or first second => first.isLocal && second.isLocal
  | option inner | keep _ inner => inner.isLocal
  | ahead inner | notAhead inner => inner.isLocal && inner.takesWords
  | lazy _ | finish => false

theorem isWord_of_takesWords {p : Pattern σ} (words : p.takesWords = true) {c : Char}
    (taken : p.takes c = true) : isWord c = true := by
  induction p with
  | one set => exact CharSet.isWord_of_ofWords words taken
  | greedy set => exact CharSet.isWord_of_ofWords words taken
  | lazy set => cases words
  | seq first second ih₁ ih₂ =>
    simp only [takesWords, takes, Bool.and_eq_true, Bool.or_eq_true] at words taken
    exact taken.elim (ih₁ words.1) (ih₂ words.2)
  | or first second ih₁ ih₂ =>
    simp only [takesWords, takes, Bool.and_eq_true, Bool.or_eq_true] at words taken
    exact taken.elim (ih₁ words.1) (ih₂ words.2)
  | option inner ih => exact ih words taken
  | keep slot inner ih => exact ih words taken
  | nothing | ahead | notAhead | wordEdge | finish => cases taken

section

variable {shift : Nat} {tail : List Char} {outer inner : Place}

/-- A way to match goes on into the tail, or it takes a part of what is before the tail. -/
theorem infront_or_of_advances {a u : List Char} {here there : Place} (rest : here.rest = u ++ tail)
    (advances : Advances a here there) :
    there.infront tail = true ∨ ∃ e, e ≠ [] ∧ a = u ++ e ∧ tail = e ++ there.rest := by
  rcases List.append_eq_append_iff.mp (rest.symm.trans advances.rest) with ⟨e, longer, split⟩ | ⟨e, -, split⟩
  · by_cases none : e = []
    · left
      simp [Place.infront, split, none]
    · exact .inr ⟨e, none, longer, split⟩
  · left
    simp [Place.infront, split]

/-- What takes words only stays in front of a tail that does not go on with a word. -/
theorem filter_of_takesWords {p : Pattern σ} (words : p.takesWords = true)
    (edge : tail.head?.any isWord = false) {u : List Char} (rest : outer.rest = u ++ tail) :
    (p.outcomes outer).filter (·.1.infront tail) = p.outcomes outer := by
  rw [List.filter_eq_self]
  intro o ho
  obtain ⟨a, advances, all⟩ := exists_advances ho
  rcases infront_or_of_advances rest advances with h | ⟨e, e_ne, rfl, split⟩
  · exact h
  · obtain ⟨c, e, rfl⟩ := List.exists_cons_of_ne_nil e_ne
    have word := isWord_of_takesWords words (all c (by simp))
    simp [split, word] at edge

/-- Beyond the tail nothing leads back in front of it. -/
theorem infront_of_advances {a : List Char} {here there : Place} (advances : Advances a here there)
    (h : there.infront tail = true) : here.infront tail = true := by
  simp only [Place.infront, decide_eq_true_eq, advances.rest, List.length_append] at h ⊢
  omega

theorem filter_flatMap_seq {p q : Pattern σ} {here : Place} :
    ((seq p q).outcomes here).filter (·.1.infront tail) =
      ((p.outcomes here).filter (·.1.infront tail)).flatMap fun o =>
        ((q.outcomes o.1).filter (·.1.infront tail)).map fun o' => (o'.1, o'.2 ++ o.2) := by
  rw [outcomes]
  induction p.outcomes here with
  | nil => rfl
  | cons o rest ih =>
    rw [List.flatMap_cons, List.filter_append, ih, List.filter_map]
    by_cases h : o.1.infront tail = true
    · rw [List.filter_cons_of_pos (by exact h), List.flatMap_cons]
      rfl
    · rw [List.filter_cons_of_neg (by exact h)]
      have none : (q.outcomes o.1).filter (·.1.infront tail) = [] := by
        rw [List.filter_eq_nil_iff]
        intro o' ho' ahead
        obtain ⟨a, advances, -⟩ := exists_advances ho'
        exact h (infront_of_advances advances ahead)
      show List.map _ (List.filter (fun o' : Place × Kept σ => o'.1.infront tail) _) ++ _ = _
      rw [none]
      rfl

theorem forall₂_and_mem {α β : Type} {R : α → β → Prop} {holds : β → Prop} {l : List α} {l' : List β}
    (h : List.Forall₂ R l l') (all : ∀ b ∈ l', holds b) :
    List.Forall₂ (fun a b => R a b ∧ holds b) l l' := by
  induction h with
  | nil => exact .nil
  | cons first _ ih =>
    rw [List.forall_mem_cons] at all
    exact .cons ⟨first, all.1⟩ (ih all.2)

/-- A pattern matches in a whole text as in a part of it, but for the ways that go on into the
tail. -/
theorem outcomes_embeds {p : Pattern σ} (near : p.isLocal = true)
    (edge : tail.head?.any isWord = false) (h : Place.Embeds shift tail outer inner) :
    List.Forall₂ (OutcomeEmbeds shift tail) ((p.outcomes outer).filter (·.1.infront tail))
      (p.outcomes inner) := by
  induction p generalizing outer inner with
  | nothing =>
    rw [outcomes]
    exact h.filter_singleton .nil
  | one set =>
    obtain ⟨before, position, rest⟩ := outer
    obtain ⟨before', position', rest'⟩ := inner
    obtain rfl : rest = rest' ++ tail := h.rest
    cases rest' with
    | nil =>
      have none : ((one (σ := σ) set).outcomes ⟨before, position, [] ++ tail⟩).filter
          (·.1.infront tail) = [] := by
        rw [List.filter_eq_nil_iff]
        intro o ho
        obtain ⟨c, r, split, -, rfl⟩ := mem_outcomes_one ho
        have split : tail = c :: r := split
        simp [Place.infront, split]
      rw [none]
      exact .nil
    | cons c rest' =>
      rw [List.cons_append, outcomes, outcomes]
      split
      · exact h.next.filter_singleton .nil
      · exact .nil
  | seq first second ih₁ ih₂ =>
    simp only [isLocal, Bool.and_eq_true] at near
    rw [filter_flatMap_seq]
    refine List.rel_flatMap (ih₁ near.1 h) ?_
    intro o o' ho
    refine List.rel_map ?_ (ih₂ near.2 ho.1)
    intro o₂ o₂' ho₂
    exact ⟨ho₂.1, List.rel_append ho₂.2 ho.2⟩
  | or first second ih₁ ih₂ =>
    simp only [isLocal, Bool.and_eq_true] at near
    rw [outcomes, outcomes, List.filter_append]
    exact List.rel_append (ih₁ near.1 h) (ih₂ near.2 h)
  | option inner ih =>
    rw [outcomes, outcomes, List.filter_append]
    exact List.rel_append (ih near h) (h.filter_singleton .nil)
  | greedy set =>
    rw [outcomes, outcomes, List.filter_map, h.rest]
    have ends : List.Forall₂ (Place.Embeds shift tail)
        ((greedyEnds set outer.position (inner.rest ++ tail) [outer]).filter (·.infront tail))
        (greedyEnds set inner.position inner.rest [inner]) := by
      refine greedyEnds_embeds h.position ?_
      rw [List.filter_cons_of_pos (by exact h.infront)]
      exact .cons h .nil
    refine List.rel_map ?_ ends
    intro q q' hq
    exact ⟨hq, .nil⟩
  | lazy set => cases near
  | keep slot p ih =>
    rw [outcomes, outcomes, List.filter_map]
    have within : ∀ o ∈ p.outcomes inner, o.1.position - inner.position ≤ inner.rest.length := by
      intro o ho
      obtain ⟨a, advances, -⟩ := exists_advances ho
      rw [advances.position, advances.rest, List.length_append]
      omega
    refine List.rel_map ?_ (forall₂_and_mem (ih near h) within)
    rintro o o' ⟨⟨place, kept⟩, short⟩
    have moved := place.position
    have start := h.position
    exact ⟨place, .cons ⟨rfl, by simp only; omega, short, h⟩ kept⟩
  | ahead p ih =>
    simp only [isLocal, Bool.and_eq_true] at near
    have found := ih near.1 h
    rw [filter_of_takesWords near.2 edge h.rest] at found
    rw [outcomes, outcomes]
    generalize p.outcomes outer = ways at found ⊢
    generalize p.outcomes inner = ways' at found ⊢
    cases found with
    | nil => exact .nil
    | cons first _ =>
      simp only [List.head?_cons, Option.map_some, Option.toList_some]
      exact h.filter_singleton first.2
  | notAhead p ih =>
    simp only [isLocal, Bool.and_eq_true] at near
    have found := ih near.1 h
    rw [filter_of_takesWords near.2 edge h.rest] at found
    rw [outcomes, outcomes]
    generalize p.outcomes outer = ways at found ⊢
    generalize p.outcomes inner = ways' at found ⊢
    cases found with
    | nil =>
      simp only [List.isEmpty_nil, if_true]
      exact h.filter_singleton .nil
    | cons _ _ => exact .nil
  | wordEdge =>
    rw [outcomes, outcomes, h.atWordEdge edge]
    split
    · exact h.filter_singleton .nil
    · exact .nil
  | finish => cases near

end

end Pattern

end QueryWorkbench
