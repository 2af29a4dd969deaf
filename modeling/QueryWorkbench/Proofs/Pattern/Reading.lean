/-
QueryWorkbench.Proofs.Pattern.Reading — what the parts of a match read.

Where only the characters of a match count, and not its places, a pattern reads a text down to what
is left of it (`Reads`). A sequence reads by its parts, a keyword reads a spelling of it, and a
repetition reads characters of its set.
-/
import QueryWorkbench.Proofs.Pattern.Excerpt

namespace QueryWorkbench.Pattern

open Text

variable {σ : Type}

/-- A way to match that starts in front of one text and ends in front of another. -/
def Reads (p : Pattern σ) (s r : List Char) : Prop :=
  ∃ here, ∃ o ∈ p.outcomes here, here.rest = s ∧ o.1.rest = r

theorem reads_of_matchAt? {p : Pattern σ} {here : Place} {m : Match σ}
    (found : p.matchAt? here = some m) : p.Reads here.rest m.stop.rest := by
  rw [matchAt?_eq_head?] at found
  obtain ⟨o, ho, rfl⟩ := Option.map_eq_some_iff.mp found
  exact ⟨here, o, List.mem_of_head? ho, rfl, rfl⟩

namespace Reads

variable {p q : Pattern σ} {set : CharSet} {s r : List Char}

theorem exists_seq (h : (seq p q).Reads s r) : ∃ t, p.Reads s t ∧ q.Reads t r := by
  obtain ⟨here, o, ho, start, stop⟩ := h
  obtain ⟨o₁, h₁, o₂, h₂, rfl⟩ := mem_outcomes_seq.mp ho
  exact ⟨o₁.1.rest, ⟨here, o₁, h₁, start, rfl⟩, ⟨o₁.1, o₂, h₂, rfl, stop⟩⟩

theorem of_option (h : (option p).Reads s r) : p.Reads s r ∨ r = s := by
  obtain ⟨here, o, ho, rfl, rfl⟩ := h
  exact (mem_outcomes_option.mp ho).imp (fun ho => ⟨here, o, ho, rfl, rfl⟩) fun same => by rw [same]

theorem of_keep {slot : σ} (h : (keep slot p).Reads s r) : p.Reads s r := by
  obtain ⟨here, o, ho, rfl, rfl⟩ := h
  obtain ⟨o', ho', rfl⟩ := mem_outcomes_keep.mp ho
  exact ⟨here, o', ho', rfl, rfl⟩

/-- What is looked for and must not be there leaves the text as it is. -/
theorem of_notAhead (h : (notAhead p).Reads s r) :
    r = s ∧ ∃ here, here.rest = s ∧ p.outcomes here = [] := by
  obtain ⟨here, o, ho, rfl, rfl⟩ := h
  obtain ⟨none, rfl⟩ := mem_outcomes_notAhead.mp ho
  exact ⟨rfl, here, rfl, none⟩

theorem exists_one (h : (one (σ := σ) set).Reads s r) : ∃ c, s = c :: r ∧ set.has c = true := by
  obtain ⟨here, o, ho, rfl, rfl⟩ := h
  obtain ⟨c, rest, split, taken, rfl⟩ := mem_outcomes_one ho
  exact ⟨c, split, taken⟩

theorem of_char {c : Char} (h : (char (σ := σ) c).Reads s r) : s = c :: r := by
  obtain ⟨d, rfl, taken⟩ := exists_one h
  obtain rfl : d = c := by simpa [CharSet.has] using taken
  rfl

theorem exists_greedy (h : (greedy (σ := σ) set).Reads s r) :
    ∃ a, s = a ++ r ∧ ∀ c ∈ a, set.has c = true := by
  obtain ⟨here, o, ho, rfl, rfl⟩ := h
  obtain ⟨a, rest, split, all, rfl⟩ := mem_outcomes_greedy ho
  exact ⟨a, split, all⟩

theorem exists_someBlanks (h : (someBlanks (σ := σ)).Reads s r) :
    ∃ a, a ≠ [] ∧ s = a ++ r ∧ ∀ c ∈ a, isBlank c = true := by
  obtain ⟨here, o, ho, rfl, rfl⟩ := h
  obtain ⟨a, rest, nonempty, split, all, rfl⟩ := mem_outcomes_run ho
  exact ⟨a, nonempty, split, all⟩

theorem exists_keyword {k : String} (h : (keyword (σ := σ) k).Reads s r) :
    ∃ w, s = w ++ r ∧ Spells k w := by
  obtain ⟨here, o, ho, rfl, rfl⟩ := h
  obtain ⟨w, rest, split, spelled, rfl⟩ := mem_outcomes_keyword ho
  exact ⟨w, split, spelled⟩

/-- What is read are characters that the pattern can take. -/
theorem exists_append (h : p.Reads s r) : ∃ a, s = a ++ r ∧ ∀ c ∈ a, p.takes c = true := by
  obtain ⟨here, o, ho, rfl, rfl⟩ := h
  obtain ⟨a, advances, all⟩ := exists_advances ho
  exact ⟨a, advances.rest, all⟩

theorem head?_isWord (h : p.Reads s r) (starts : p.wordStarts.1 = true) :
    s.head?.any isWord = true := by
  obtain ⟨here, o, ho, rfl, -⟩ := h
  exact (head?_of_wordStarts ho).1 starts

end Reads

end QueryWorkbench.Pattern
