/-
QueryWorkbench.Proofs.Pattern.Matching — how the parts of a pattern match.

`First p here there parts` says that the first way to match goes from one place to another, and a
sequence goes through the places in between (`First.seq`). Whether an optional part is taken depends
on what follows it, and `Reaches` says of a part how it matches in front of the rest: an optional one
that leads nowhere is passed over (`reaches_option`). That a pattern does not match is the equation
`outcomes = []`. The lemmas follow the constructors of patterns and the combinators built on them.
-/
import QueryWorkbench.Proofs.Pattern.Outcomes
import QueryWorkbench.Proofs.Text.Words

namespace QueryWorkbench

open Text

/-! ## Ends of repetitions -/

theorem getLast?_cons_or {α : Type} (c : α) (w : List α) (before : Option α) :
    (c :: w).getLast?.or before = w.getLast?.or (some c) := by
  cases w with
  | nil => rfl
  | cons d w => rw [List.getLast?_cons_cons, List.getLast?_cons]; rfl

theorem mem_greedyEnds {set : CharSet} {position : Nat} {s : List Char} {nearer : List Place}
    {q : Place} (hq : q ∈ greedyEnds set position s nearer) :
    q ∈ nearer ∨ ∃ a rest, a ≠ [] ∧ s = a ++ rest ∧ (∀ c ∈ a, set.has c = true) ∧
      q = ⟨a.getLast?, position + a.length, rest⟩ := by
  induction s generalizing position nearer with
  | nil => exact Or.inl hq
  | cons c s ih =>
    rw [greedyEnds] at hq
    split at hq
    · rename_i taken
      rcases ih hq with hq | ⟨a, rest, a_ne, rfl, all, rfl⟩
      · rcases List.mem_cons.mp hq with rfl | hq
        · exact Or.inr ⟨[c], s, by simp, rfl, by simpa using taken, rfl⟩
        · exact Or.inl hq
      · refine Or.inr ⟨c :: a, rest, by simp, rfl, by simpa using ⟨taken, all⟩, ?_⟩
        have last : (c :: a).getLast? = a.getLast? := by
          cases a with
          | nil => exact absurd rfl a_ne
          | cons d a => exact List.getLast?_cons_cons
        rw [last, List.length_cons, Nat.add_right_comm, Nat.add_assoc]
    · exact Or.inl hq

theorem head?_greedyEnds {set : CharSet} {w rest : List Char}
    (all : ∀ c ∈ w, set.has c = true) (edge : rest.head?.any set.has = false)
    {before : Option Char} {position : Nat} {nearer : List Place}
    (nearest : nearer.head? = some ⟨before, position, w ++ rest⟩) :
    (greedyEnds set position (w ++ rest) nearer).head? =
      some ⟨w.getLast?.or before, position + w.length, rest⟩ := by
  induction w generalizing before position nearer with
  | nil =>
    cases rest with
    | nil => simpa [greedyEnds] using nearest
    | cons c rest =>
      have outside : set.has c = false := by simpa using edge
      simpa [greedyEnds, outside] using nearest
  | cons c w ih =>
    have taken : set.has c = true := all c (List.mem_cons_self ..)
    rw [List.cons_append, greedyEnds, if_pos taken,
      ih (fun d hd => all d (List.mem_cons_of_mem _ hd)) rfl, getLast?_cons_or, List.length_cons,
      Nat.add_right_comm, Nat.add_assoc]

namespace Pattern

variable {σ : Type} {p q : Pattern σ} {here mid there : Place} {k₁ k₂ parts : Kept σ}

/-- The first way to match leads from one place to another and keeps some parts. -/
def First (p : Pattern σ) (here there : Place) (parts : Kept σ) : Prop :=
  (p.outcomes here).head? = some (there, parts)

theorem First.matchAt? (h : First p here there parts) :
    p.matchAt? here = some ⟨here, there, parts⟩ := by
  rw [matchAt?_eq_head?, h]
  rfl

theorem matchAt?_eq_none (h : p.outcomes here = []) : p.matchAt? here = none := by
  rw [matchAt?_eq_head?, h]
  rfl

theorem First.ne_nil (h : First p here there parts) : p.outcomes here ≠ [] := by
  intro none
  rw [First, none] at h
  cases h

/-! ## Sequences -/

theorem mem_outcomes_seq {o : Place × Kept σ} :
    o ∈ (seq p q).outcomes here ↔
      ∃ o₁ ∈ p.outcomes here, ∃ o₂ ∈ q.outcomes o₁.1, o = (o₂.1, o₂.2 ++ o₁.2) := by
  rw [outcomes, List.mem_flatMap]
  constructor
  · rintro ⟨o₁, h₁, h⟩
    obtain ⟨o₂, h₂, rfl⟩ := List.mem_map.mp h
    exact ⟨o₁, h₁, o₂, h₂, rfl⟩
  · rintro ⟨o₁, h₁, o₂, h₂, rfl⟩
    exact ⟨o₁, h₁, List.mem_map.mpr ⟨o₂, h₂, rfl⟩⟩

theorem outcomes_seq_eq_nil :
    (seq p q).outcomes here = [] ↔ ∀ o ∈ p.outcomes here, q.outcomes o.1 = [] := by
  rw [outcomes, List.flatMap_eq_nil_iff]
  simp only [List.map_eq_nil_iff]

theorem outcomes_seq_ne_nil :
    (seq p q).outcomes here ≠ [] ↔ ∃ o ∈ p.outcomes here, q.outcomes o.1 ≠ [] := by
  rw [Ne, outcomes_seq_eq_nil]
  simp only [Classical.not_forall, exists_prop, ne_eq]

theorem outcomes_seq_eq_nil_of_left (h : p.outcomes here = []) :
    (seq p q).outcomes here = [] := by
  rw [outcomes, h]
  rfl

theorem First.seq (h₁ : First p here mid k₁) (h₂ : First q mid there k₂) :
    First (.seq p q) here there (k₂ ++ k₁) := by
  unfold First at h₁ h₂
  obtain ⟨rest, split⟩ := List.head?_eq_some_iff.mp h₁
  obtain ⟨rest₂, split₂⟩ := List.head?_eq_some_iff.mp h₂
  rw [First, outcomes, split, List.flatMap_cons, split₂]
  rfl

theorem First.andThen (h₁ : First p here mid []) (h₂ : First q mid there parts) :
    First (.seq p q) here there parts := by
  have both := h₁.seq h₂
  rwa [List.append_nil] at both

/-- A way to match `p` before which there are only ways that `q` cannot follow. -/
def Reaches (p q : Pattern σ) (here mid : Place) (parts : Kept σ) : Prop :=
  ∃ dead more, p.outcomes here = dead ++ (mid, parts) :: more ∧ ∀ o ∈ dead, q.outcomes o.1 = []

theorem Reaches.seq (h₁ : Reaches p q here mid k₁) (h₂ : First q mid there k₂) :
    First (.seq p q) here there (k₂ ++ k₁) := by
  obtain ⟨dead, more, split, all⟩ := h₁
  unfold First at h₂
  obtain ⟨rest, split₂⟩ := List.head?_eq_some_iff.mp h₂
  have none : (dead.flatMap fun o => (q.outcomes o.1).map fun o' => (o'.1, o'.2 ++ o.2)) = [] := by
    rw [List.flatMap_eq_nil_iff]
    intro o ho
    rw [all o ho, List.map_nil]
  rw [First, outcomes, split, List.flatMap_append, none, List.nil_append, List.flatMap_cons, split₂]
  rfl

theorem Reaches.keep (slot : σ) (h : Reaches p q here mid parts) :
    Reaches (.keep slot p) q here mid
      ((slot, ⟨here, mid.position - here.position⟩) :: parts) := by
  obtain ⟨dead, more, split, all⟩ := h
  refine ⟨_, _, by rw [outcomes, split, List.map_append, List.map_cons], ?_⟩
  intro o ho
  obtain ⟨o', ho', rfl⟩ := List.mem_map.mp ho
  exact all o' ho'

/-- What is reached behind a way to match is reached by both together. -/
theorem First.reaches {p₂ : Pattern σ} (h₁ : First p here mid k₁) (h₂ : Reaches p₂ q mid there k₂) :
    Reaches (.seq p p₂) q here there (k₂ ++ k₁) := by
  obtain ⟨dead, more, split₂, all⟩ := h₂
  unfold First at h₁
  obtain ⟨rest, split⟩ := List.head?_eq_some_iff.mp h₁
  refine ⟨dead.map fun o => (o.1, o.2 ++ k₁), _, by
    rw [outcomes, split, List.flatMap_cons, split₂, List.map_append, List.map_cons,
      List.append_assoc, List.cons_append], fun o ho => ?_⟩
  obtain ⟨o', ho', rfl⟩ := List.mem_map.mp ho
  exact all o' ho'

theorem Reaches.option (h : Reaches p q here mid parts) : Reaches (.option p) q here mid parts := by
  obtain ⟨dead, more, split, all⟩ := h
  exact ⟨dead, more ++ [(here, [])], by
    rw [outcomes, split, List.append_assoc, List.cons_append], all⟩

/-- An optional part that nothing can follow is passed over. -/
theorem reaches_option (dead : ∀ o ∈ p.outcomes here, q.outcomes o.1 = []) :
    Reaches (.option p) q here here [] :=
  ⟨p.outcomes here, [], by rw [outcomes], dead⟩

/-! ## Choices -/

theorem mem_outcomes_or {o : Place × Kept σ} :
    o ∈ (or p q).outcomes here ↔ o ∈ p.outcomes here ∨ o ∈ q.outcomes here := by
  rw [outcomes, List.mem_append]

theorem outcomes_or_eq_nil :
    (or p q).outcomes here = [] ↔ p.outcomes here = [] ∧ q.outcomes here = [] := by
  rw [outcomes, List.append_eq_nil_iff]

theorem First.or_left (h : First p here there parts) (q : Pattern σ) :
    First (.or p q) here there parts := by
  unfold First at h
  rw [First, outcomes, List.head?_append, h]
  rfl

theorem First.or_right (none : p.outcomes here = []) (h : First q here there parts) :
    First (.or p q) here there parts := by
  rw [First, outcomes, none, List.nil_append]
  exact h

theorem mem_outcomes_option {o : Place × Kept σ} :
    o ∈ (option p).outcomes here ↔ o ∈ p.outcomes here ∨ o = (here, []) := by
  rw [outcomes, List.mem_append, List.mem_singleton]

theorem First.option (h : First p here there parts) : First (.option p) here there parts := by
  unfold First at h
  rw [First, outcomes, List.head?_append, h]
  rfl

theorem first_option_of_nil (none : p.outcomes here = []) : First (.option p) here here [] := by
  rw [First, outcomes, none]
  rfl

/-! ## Parts, conditions on what follows, edges -/

theorem mem_outcomes_keep {o : Place × Kept σ} {slot : σ} : o ∈ (keep slot p).outcomes here ↔
    ∃ o' ∈ p.outcomes here, (o'.1, (slot, ⟨here, o'.1.position - here.position⟩) :: o'.2) = o := by
  rw [outcomes, List.mem_map]

theorem First.keep (slot : σ) (h : First p here there parts) :
    First (.keep slot p) here there
      ((slot, ⟨here, there.position - here.position⟩) :: parts) := by
  unfold First at h
  rw [First, outcomes, List.head?_map, h]
  rfl

theorem mem_outcomes_ahead {o : Place × Kept σ} : o ∈ (ahead p).outcomes here ↔
    ∃ o', (p.outcomes here).head? = some o' ∧ (here, o'.2) = o := by
  rw [outcomes, Option.mem_toList, Option.map_eq_some_iff]

theorem First.ahead (h : First p here there parts) : First (.ahead p) here here parts := by
  unfold First at h
  rw [First, outcomes, h]
  rfl

theorem outcomes_ahead_eq_nil : (ahead p).outcomes here = [] ↔ p.outcomes here = [] := by
  rw [outcomes]
  cases p.outcomes here with
  | nil => simp
  | cons o rest => simp

theorem mem_outcomes_notAhead {o : Place × Kept σ} :
    o ∈ (notAhead p).outcomes here ↔ p.outcomes here = [] ∧ o = (here, []) := by
  rw [outcomes]
  by_cases none : p.outcomes here = []
  · simp [none]
  · simp [none]

theorem first_notAhead (none : p.outcomes here = []) : First (notAhead p) here here [] := by
  rw [First, outcomes, none]
  rfl

theorem first_wordEdge (edge : here.atWordEdge = true) :
    First (wordEdge (σ := σ)) here here [] := by
  rw [First, outcomes, if_pos edge]
  rfl

theorem mem_outcomes_wordEdge {o : Place × Kept σ} (h : o ∈ wordEdge.outcomes here) :
    here.atWordEdge = true ∧ o = (here, []) := by
  rw [outcomes] at h
  split at h
  · exact ⟨by assumption, List.mem_singleton.mp h⟩
  · cases h

theorem mem_outcomes_finish {o : Place × Kept σ} :
    o ∈ (finish (σ := σ)).outcomes here ↔ here.rest = [] ∧ o = (here, []) := by
  rw [outcomes]
  by_cases none : here.rest = []
  · simp [none]
  · simp [none]

/-! ## Characters and repetitions -/

section

variable {before : Option Char} {position : Nat} {w rest : List Char} {set : CharSet}

theorem first_one {c : Char} (taken : set.has c = true) :
    First (one (σ := σ) set) ⟨before, position, c :: rest⟩ ⟨some c, position + 1, rest⟩ [] := by
  rw [First, outcomes]
  simp only [taken, if_true, List.head?_cons]

theorem mem_outcomes_one {o : Place × Kept σ} (h : o ∈ (one set).outcomes here) :
    ∃ c rest, here.rest = c :: rest ∧ set.has c = true ∧
      o = (⟨some c, here.position + 1, rest⟩, []) := by
  obtain ⟨before, position, rest⟩ := here
  cases rest with
  | nil => cases h
  | cons c rest =>
    rw [outcomes] at h
    split at h
    · exact ⟨c, rest, rfl, by assumption, List.mem_singleton.mp h⟩
    · cases h

theorem first_greedy (all : ∀ c ∈ w, set.has c = true) (edge : rest.head?.any set.has = false) :
    First (greedy (σ := σ) set) ⟨before, position, w ++ rest⟩
      ⟨w.getLast?.or before, position + w.length, rest⟩ [] := by
  rw [First, outcomes, List.head?_map, head?_greedyEnds all edge rfl]
  rfl

theorem mem_outcomes_greedy {o : Place × Kept σ} (h : o ∈ (greedy set).outcomes here) :
    ∃ a rest, here.rest = a ++ rest ∧ (∀ c ∈ a, set.has c = true) ∧
      o = (⟨a.getLast?.or here.before, here.position + a.length, rest⟩, []) := by
  rw [outcomes] at h
  obtain ⟨q, hq, rfl⟩ := List.mem_map.mp h
  rcases mem_greedyEnds hq with hq | ⟨a, rest, a_ne, split, all, rfl⟩
  · obtain rfl := List.mem_singleton.mp hq
    exact ⟨[], q.rest, rfl, by simp, rfl⟩
  · refine ⟨a, rest, split, all, ?_⟩
    rw [List.getLast?_eq_some_getLast a_ne]
    rfl

theorem mem_outcomes_lazy {o : Place × Kept σ} : o ∈ (lazy set).outcomes here ↔
    ∃ q ∈ lazyEnds set here.before here.position here.rest, (q, []) = o := by
  rw [outcomes, List.mem_map]

/-- One character of a set and then as many as there are. -/
theorem first_run (nonempty : w ≠ []) (all : ∀ c ∈ w, set.has c = true)
    (edge : rest.head?.any set.has = false) :
    First (seq (one (σ := σ) set) (greedy set)) ⟨before, position, w ++ rest⟩
      ⟨w.getLast?.or before, position + w.length, rest⟩ [] := by
  cases w with
  | nil => exact absurd rfl nonempty
  | cons c w =>
    have taken : set.has c = true := all c (List.mem_cons_self ..)
    have more : First (greedy (σ := σ) set) ⟨some c, position + 1, w ++ rest⟩
        ⟨w.getLast?.or (some c), position + 1 + w.length, rest⟩ [] :=
      first_greedy (fun d hd => all d (List.mem_cons_of_mem _ hd)) edge
    rw [getLast?_cons_or, List.length_cons, Nat.add_comm w.length, ← Nat.add_assoc]
    exact (first_one taken).seq more

theorem mem_outcomes_run {o : Place × Kept σ}
    (h : o ∈ (seq (one set) (greedy set)).outcomes here) :
    ∃ a rest, a ≠ [] ∧ here.rest = a ++ rest ∧ (∀ c ∈ a, set.has c = true) ∧
      o = (⟨a.getLast?.or here.before, here.position + a.length, rest⟩, []) := by
  obtain ⟨o₁, h₁, o₂, h₂, rfl⟩ := mem_outcomes_seq.mp h
  obtain ⟨c, rest₁, split₁, taken, rfl⟩ := mem_outcomes_one h₁
  obtain ⟨a, rest, split, all, rfl⟩ := mem_outcomes_greedy h₂
  refine ⟨c :: a, rest, by simp, ?_, ?_, ?_⟩
  · have split : rest₁ = a ++ rest := split
    rw [split₁, split, List.cons_append]
  · intro d hd
    rcases List.mem_cons.mp hd with rfl | hd
    · exact taken
    · exact all d hd
  · rw [getLast?_cons_or, List.length_cons, Nat.add_comm a.length, ← Nat.add_assoc]
    rfl

theorem first_char (c : Char) :
    First (char (σ := σ) c) ⟨before, position, c :: rest⟩ ⟨some c, position + 1, rest⟩ [] :=
  first_one (by simp [CharSet.has])

theorem outcomes_char_eq_nil {c : Char} (other : rest.head? ≠ some c) :
    (char (σ := σ) c).outcomes ⟨before, position, rest⟩ = [] := by
  rw [List.eq_nil_iff_forall_not_mem]
  intro o h
  obtain ⟨d, more, split, same, -⟩ := mem_outcomes_one h
  have split : rest = d :: more := split
  have same : d = c := by simpa [CharSet.has] using same
  exact other (by rw [split, same]; rfl)

/-- One space is taken in front of what is no blank. -/
theorem first_someBlanks (edge : rest.head?.any isBlank = false) :
    First (someBlanks (σ := σ)) ⟨before, position, ' ' :: rest⟩ ⟨some ' ', position + 1, rest⟩ [] :=
  first_run (w := [' ']) (by simp) (by decide) edge

/-- Blanks are taken to their end, here one space. -/
theorem first_blanks_space (edge : rest.head?.any isBlank = false) :
    First (blanks (σ := σ)) ⟨before, position, ' ' :: rest⟩ ⟨some ' ', position + 1, rest⟩ [] :=
  first_greedy (w := [' ']) (by decide) edge

/-- A word is taken to its end. -/
theorem first_word (nonempty : w ≠ []) (all : ∀ c ∈ w, isWord c = true)
    (edge : rest.head?.any isWord = false) :
    First (word (σ := σ)) ⟨before, position, w ++ rest⟩
      ⟨w.getLast?.or before, position + w.length, rest⟩ [] := by
  show First (seq (one .word) (greedy .word)) _ _ _
  exact first_run nonempty all edge

/-- Few characters are taken first: a lazy run ends at the first place that `q` can follow. -/
theorem reaches_someLazy (nonempty : w ≠ [])
    (inside : ∀ a b, w = a ++ b → a ≠ [] → b ≠ [] →
      ∀ before position, q.outcomes ⟨before, position, b ++ rest⟩ = []) :
    Reaches someLazy q ⟨before, position, w ++ rest⟩
      ⟨w.getLast?.or before, position + w.length, rest⟩ [] := by
  -- Goes over the rest `t` of the run, `a` being what is taken.
  have walk : ∀ t a before position, w = a ++ t → a ≠ [] → ∃ dead more,
      lazyEnds .any before position (t ++ rest) =
        dead ++ ⟨t.getLast?.or before, position + t.length, rest⟩ :: more ∧
      ∀ o ∈ dead, q.outcomes o = [] := by
    intro t
    induction t with
    | nil =>
      intro a before position _ _
      cases rest with
      | nil => exact ⟨[], [], rfl, by simp⟩
      | cons c rest => exact ⟨[], _, rfl, by simp⟩
    | cons c t ih =>
      intro a before position split a_ne
      obtain ⟨dead, more, ends, all⟩ := ih (a ++ [c]) (some c) (position + 1)
        (by rw [split, List.append_assoc]; rfl) (by simp)
      refine ⟨⟨before, position, c :: t ++ rest⟩ :: dead, more, ?_, ?_⟩
      · have taken : CharSet.any.has c = true := rfl
        rw [List.cons_append, lazyEnds, if_pos taken, ends, getLast?_cons_or, List.length_cons,
          Nat.add_right_comm, Nat.add_assoc]
        rfl
      · intro o ho
        rcases List.mem_cons.mp ho with rfl | ho
        · exact inside a (c :: t) split a_ne (by simp) _ _
        · exact all o ho
  cases w with
  | nil => exact absurd rfl nonempty
  | cons c w =>
    obtain ⟨dead, more, ends, all⟩ := walk w [c] (some c) (position + 1) rfl (by simp)
    refine ⟨dead.map (·, []), more.map (·, []), ?_, ?_⟩
    · have here_one : (one (σ := σ) .any).outcomes ⟨before, position, c :: w ++ rest⟩ =
          [(⟨some c, position + 1, w ++ rest⟩, [])] := rfl
      rw [someLazy, outcomes, here_one, List.flatMap_singleton, outcomes]
      simp only [ends, List.map_append, List.map_cons, List.map_map, Function.comp_def,
        List.append_nil, getLast?_cons_or, List.length_cons]
      rw [Nat.add_right_comm, Nat.add_assoc]
    · intro o ho
      obtain ⟨q, hq, rfl⟩ := List.mem_map.mp ho
      exact all q hq

end

/-! ## Going forward -/

/-- Whether a pattern can take a character. -/
def takes : Pattern σ → Char → Bool
  | one set, c | greedy set, c | lazy set, c => set.has c
  | seq first second, c | or first second, c => first.takes c || second.takes c
  | option inner, c | keep _ inner, c => inner.takes c
  | _, _ => false

/-- What is further on by some characters. -/
structure Advances (a : List Char) (here there : Place) : Prop where
  rest : here.rest = a ++ there.rest
  before : there.before = a.getLast?.or here.before
  position : there.position = here.position + a.length

theorem Advances.refl (here : Place) : Advances [] here here := ⟨rfl, rfl, rfl⟩

theorem Advances.trans {a b : List Char} {here mid there : Place} (h : Advances a here mid)
    (k : Advances b mid there) : Advances (a ++ b) here there := by
  refine ⟨by rw [h.rest, k.rest, List.append_assoc], ?_, ?_⟩
  · rw [k.before, h.before, List.getLast?_append]
    cases b.getLast? <;> rfl
  · rw [k.position, h.position, List.length_append, Nat.add_assoc]

theorem exists_advances_of_mem_lazyEnds {set : CharSet} {before : Option Char} {position : Nat}
    {s : List Char} {q : Place} (hq : q ∈ lazyEnds set before position s) :
    ∃ a, Advances a ⟨before, position, s⟩ q ∧ ∀ c ∈ a, set.has c = true := by
  induction s generalizing before position with
  | nil =>
    obtain rfl := List.mem_singleton.mp hq
    exact ⟨[], .refl _, nofun⟩
  | cons c rest ih =>
    rw [lazyEnds] at hq
    rcases List.mem_cons.mp hq with rfl | hq
    · exact ⟨[], .refl _, nofun⟩
    · split at hq
      · rename_i taken
        obtain ⟨a, advances, all⟩ := ih hq
        have one : Advances [c] ⟨before, position, c :: rest⟩ ⟨some c, position + 1, rest⟩ :=
          ⟨rfl, rfl, rfl⟩
        exact ⟨c :: a, one.trans advances, List.forall_mem_cons.mpr ⟨taken, all⟩⟩
      · cases hq

/-- A match ends further on in the text, behind characters that the pattern can take. -/
theorem exists_advances {p : Pattern σ} : ∀ {here : Place} {o : Place × Kept σ},
    o ∈ p.outcomes here → ∃ a, Advances a here o.1 ∧ ∀ c ∈ a, p.takes c = true := by
  induction p with
  | nothing =>
    intro here o ho
    obtain rfl := List.mem_singleton.mp ho
    exact ⟨[], .refl _, nofun⟩
  | one set =>
    intro here o ho
    obtain ⟨c, rest, split, taken, rfl⟩ := mem_outcomes_one ho
    exact ⟨[c], ⟨split, rfl, rfl⟩, by simpa [takes] using taken⟩
  | seq first second ih₁ ih₂ =>
    intro here o ho
    obtain ⟨o₁, h₁, o₂, h₂, rfl⟩ := mem_outcomes_seq.mp ho
    obtain ⟨a, to_mid, all₁⟩ := ih₁ h₁
    obtain ⟨b, to_end, all₂⟩ := ih₂ h₂
    refine ⟨a ++ b, to_mid.trans to_end, fun c hc => ?_⟩
    rcases List.mem_append.mp hc with hc | hc
    · simp [takes, all₁ c hc]
    · simp [takes, all₂ c hc]
  | or first second ih₁ ih₂ =>
    intro here o ho
    rcases mem_outcomes_or.mp ho with ho | ho
    · obtain ⟨a, advances, all⟩ := ih₁ ho
      exact ⟨a, advances, fun c hc => by simp [takes, all c hc]⟩
    · obtain ⟨a, advances, all⟩ := ih₂ ho
      exact ⟨a, advances, fun c hc => by simp [takes, all c hc]⟩
  | option inner ih =>
    intro here o ho
    rcases mem_outcomes_option.mp ho with ho | rfl
    · exact ih ho
    · exact ⟨[], .refl _, nofun⟩
  | greedy set =>
    intro here o ho
    obtain ⟨a, rest, split, all, rfl⟩ := mem_outcomes_greedy ho
    exact ⟨a, ⟨split, rfl, rfl⟩, all⟩
  | lazy set =>
    intro here o ho
    obtain ⟨q, hq, rfl⟩ := mem_outcomes_lazy.mp ho
    exact exists_advances_of_mem_lazyEnds hq
  | keep slot inner ih =>
    intro here o ho
    obtain ⟨o', ho', rfl⟩ := mem_outcomes_keep.mp ho
    obtain ⟨a, advances, all⟩ := ih ho'
    exact ⟨a, advances, all⟩
  | ahead inner =>
    intro here o ho
    obtain ⟨o', -, rfl⟩ := mem_outcomes_ahead.mp ho
    exact ⟨[], .refl _, nofun⟩
  | notAhead inner =>
    intro here o ho
    rw [(mem_outcomes_notAhead.mp ho).2]
    exact ⟨[], .refl _, nofun⟩
  | wordEdge =>
    intro here o ho
    rw [(mem_outcomes_wordEdge ho).2]
    exact ⟨[], .refl _, nofun⟩
  | finish =>
    intro here o ho
    rw [(mem_outcomes_finish.mp ho).2]
    exact ⟨[], .refl _, nofun⟩

/-- A match ends further on in the text. -/
theorem exists_append_of_mem_outcomes {o : Place × Kept σ} (ho : o ∈ p.outcomes here) :
    ∃ a, here.rest = a ++ o.1.rest :=
  (exists_advances ho).imp fun _ found => found.1.rest

/-- A match does not go over what the pattern cannot take. -/
theorem not_mem_of_takes {p : Pattern σ} {c : Char} (free : p.takes c = false) {a : List Char}
    (all : ∀ c ∈ a, p.takes c = true) : c ∉ a := fun hc => by
  simp [all c hc] at free

/-! ## Patterns that keep nothing -/

/-- A pattern that keeps no part. -/
def KeepsNothing : Pattern σ → Prop
  | seq first second => first.KeepsNothing ∧ second.KeepsNothing
  | or first second => first.KeepsNothing ∧ second.KeepsNothing
  | option inner => inner.KeepsNothing
  | keep _ _ => False
  | ahead inner => inner.KeepsNothing
  | _ => True

theorem KeepsNothing.snd_eq_nil {p : Pattern σ} (h : p.KeepsNothing) :
    ∀ {here : Place} {o : Place × Kept σ}, o ∈ p.outcomes here → o.2 = [] := by
  induction p with
  | nothing =>
    intro here o ho
    obtain rfl := List.mem_singleton.mp ho
    rfl
  | one set =>
    intro here o ho
    obtain ⟨c, rest, -, -, rfl⟩ := mem_outcomes_one ho
    rfl
  | seq first second ih₁ ih₂ =>
    intro here o ho
    obtain ⟨o₁, h₁, o₂, h₂, rfl⟩ := mem_outcomes_seq.mp ho
    rw [ih₁ h.1 h₁, ih₂ h.2 h₂]
    rfl
  | or first second ih₁ ih₂ =>
    intro here o ho
    exact (mem_outcomes_or.mp ho).elim (ih₁ h.1) (ih₂ h.2)
  | option inner ih =>
    intro here o ho
    rcases mem_outcomes_option.mp ho with ho | rfl
    · exact ih h ho
    · rfl
  | greedy set =>
    intro here o ho
    obtain ⟨a, rest, -, -, rfl⟩ := mem_outcomes_greedy ho
    rfl
  | lazy set =>
    intro here o ho
    obtain ⟨q, -, rfl⟩ := mem_outcomes_lazy.mp ho
    rfl
  | keep slot inner => exact h.elim
  | ahead inner ih =>
    intro here o ho
    obtain ⟨o', found, rfl⟩ := mem_outcomes_ahead.mp ho
    show o'.2 = []
    exact ih h (List.mem_of_head? found)
  | notAhead inner =>
    intro here o ho
    rw [(mem_outcomes_notAhead.mp ho).2]
  | wordEdge =>
    intro here o ho
    rw [(mem_outcomes_wordEdge ho).2]
  | finish =>
    intro here o ho
    rw [(mem_outcomes_finish.mp ho).2]

/-- What keeps nothing only has to match somehow to stand ahead. -/
theorem first_ahead_of_keepsNothing (h : p.KeepsNothing) (some : p.outcomes here ≠ []) :
    First (ahead p) here here [] := by
  obtain ⟨o, rest, split⟩ := List.exists_cons_of_ne_nil some
  have nothing : o.2 = [] := h.snd_eq_nil (split ▸ List.mem_cons_self ..)
  have first : First p here o.1 o.2 := by
    rw [First, split]
    rfl
  exact nothing ▸ first.ahead

end Pattern

end QueryWorkbench
