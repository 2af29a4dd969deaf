/-
QueryWorkbench.Proofs.Query.AliasNames — what new aliases look like in SQL text.

A new alias is made of small ASCII letters and digits (`isSmall_of_mem_freshAlias`). So it is the
same in small letters, and it can be written for a table unless it spells one of the words that the
patterns are made of (`isName_freshAlias_iff`). The first letters of `settings` do, those of `orders`
do not.
-/
import QueryWorkbench.Proofs.Analysis.TableMatch
import QueryWorkbench.Proofs.Query.FreshAlias

namespace QueryWorkbench

open Analysis Text

/-- A small ASCII letter or a digit. -/
def IsSmall (c : Char) : Prop := c.isAlphanum = true ∧ c.toLower = c

theorem toNat_lt_of_isAlphanum {c : Char} (h : c.isAlphanum = true) : c.toNat < 128 := by
  have below {b : Char} (small : b.toNat < 128) (le : c.val ≤ b.val) : c.toNat < 128 :=
    Nat.lt_of_le_of_lt (UInt32.le_iff_toNat_le.mp le) small
  rcases Bool.or_eq_true_iff.mp h with letter | digit
  · rcases Bool.or_eq_true_iff.mp letter with large | small
    · exact below (b := 'Z') (by decide) (of_decide_eq_true large).2
    · exact below (b := 'z') (by decide) (of_decide_eq_true (Bool.and_eq_true_iff.mp small).2)
  · exact below (b := '9') (by decide) (of_decide_eq_true (Bool.and_eq_true_iff.mp digit).2)

/-- What holds of every ASCII letter and digit holds if it holds of the first 128 characters. -/
theorem forall_isAlphanum {P : Char → Prop}
    (all : ∀ n < 128, (Char.ofNat n).isAlphanum = true → P (Char.ofNat n)) {c : Char}
    (h : c.isAlphanum = true) : P c := by
  have own := all c.toNat (toNat_lt_of_isAlphanum h)
  rw [Char.ofNat_toNat] at own
  exact own h

theorem isSmall_toLower {c : Char} (h : c.isAlphanum = true) : IsSmall c.toLower :=
  forall_isAlphanum (P := fun c => c.toLower.isAlphanum = true ∧ c.toLower.toLower = c.toLower)
    (by decide) h

theorem isSmall_of_isDigit {c : Char} (h : c.isDigit = true) : IsSmall c := by
  have own : c.isAlphanum = true := Bool.or_eq_true_iff.mpr (Or.inr h)
  exact ⟨own, forall_isAlphanum (P := fun c => c.isDigit = true → c.toLower = c) (by decide) own h⟩

theorem isSmall_of_mem_aliasStem {table : String} : ∀ c ∈ (aliasStem table).toList, IsSmall c := by
  intro c hc
  rw [aliasStem] at hc
  split at hc
  · obtain rfl : c = 't' := by simpa using hc
    exact ⟨by decide, by decide⟩
  · rw [String.toList_ofList] at hc
    obtain ⟨x, hx, rfl⟩ := List.mem_map.mp (List.mem_of_mem_take hc)
    exact isSmall_toLower (List.mem_filter.mp hx).2

/-- New aliases are made of small letters and digits. -/
theorem isSmall_of_mem_freshAlias (table : String) (taken : List String) :
    ∀ c ∈ (freshAlias table taken).toList, IsSmall c := by
  rcases freshAlias_eq_or table taken with same | ⟨n, same⟩
  · rw [same]
    exact isSmall_of_mem_aliasStem
  · intro c hc
    rw [same, String.toList_append, List.mem_append, Nat.toString_eq_ofList_toDigits,
      String.toList_ofList] at hc
    rcases hc with hc | hc
    · exact isSmall_of_mem_aliasStem c hc
    · exact isSmall_of_isDigit (Nat.isDigit_of_mem_toDigits (by decide) (by decide) hc)

theorem lower_freshAlias (table : String) (taken : List String) :
    lower (freshAlias table taken) = freshAlias table taken := by
  have small := isSmall_of_mem_freshAlias table taken
  have same : (freshAlias table taken).toList.map Char.toLower = (freshAlias table taken).toList :=
    (List.map_congr_left fun c hc => (small c hc).2).trans (List.map_id _)
  rw [lower, lowerChars_of_ascii fun c hc => toNat_lt_of_isAlphanum (small c hc).1, same,
    String.ofList_toList]

/-- A new alias can be written for a table unless it is a word of the patterns. -/
theorem isName_freshAlias_iff {table : String} {taken : List String} :
    IsName (freshAlias table taken) ↔ freshAlias table taken ∉ patternWords.map lower := by
  have small := isSmall_of_mem_freshAlias table taken
  constructor
  · intro name word
    obtain ⟨k, hk, same⟩ := List.mem_map.mp word
    exact name.free k hk ((lower_freshAlias table taken).trans same.symm)
  · intro free
    refine ⟨freshAlias_ne_empty table taken, fun c hc => toNat_lt_of_isAlphanum (small c hc).1,
      fun c hc => ?_, fun k hk same => ?_⟩
    · exact isWord_of_isAlphanum (toNat_lt_of_isAlphanum (small c hc).1) (small c hc).1
    · rw [lower_freshAlias] at same
      exact free (List.mem_map.mpr ⟨k, hk, same.symm⟩)

end QueryWorkbench
