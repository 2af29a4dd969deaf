/-
QueryWorkbench.Proofs.Query.FreshAlias — a new alias is the first free one.

The aliases of a table are tried one after the other: its stem, then the stem with 1, with 2 and so
on. The search ends with the alias that `freshAlias` finds in a bounded range, and that is the stem
or the stem with the least number that is free (`freshAlias_least`).

## How the proof goes

`Settles` is the search as a relation, with no bound on it: it ends at an alias that is free, or
goes on to the next one. It has one result (`Settles.unique`), so that all that has to be shown is
that it comes to the alias of `freshAlias` (`settles_freshAlias`). Numbers behind a stem make
different aliases (`nodup_numbered`) and only so many are taken, so one of the numbers up to their
count is free (`exists_free_number`) and the bounded range is long enough. The least free number is
what both descriptions have in common (`freshAlias_cases`).

What a stem is, is stated without the way in which it is computed: `LastPart` says of a part of a
name that it has no dot and comes behind the last one.

There are no hypotheses. Any table has a stem, also one without a letter or a digit, and any list
may be taken already.
-/
import Mathlib
import QueryWorkbench.Query.TableAlias

namespace QueryWorkbench

open Text

variable {stem table : String} {taken : List String}

/-! ## Numbers behind a stem -/

/-- A stem and the numbers behind it are different aliases. -/
theorem nodup_numbered (stem : String) (n : Nat) :
    (stem :: (List.range' 1 n).map fun i => stem ++ toString i).Nodup := by
  refine List.nodup_cons.mpr ⟨fun again => ?_, List.Nodup.map ?_ List.nodup_range'⟩
  · obtain ⟨i, -, same⟩ := List.mem_map.mp again
    have digits : toString i ≠ "" := by simp
    exact digits ((String.append_right_inj stem).mp (same.trans String.append_empty.symm))
  · intro i j same
    exact Nat.repr_injective ((String.append_right_inj stem).mp same)

/-- If a stem is taken, one of the numbers up to the count of taken aliases is free. -/
theorem exists_free_number (h : stem ∈ taken) :
    ∃ n, 1 ≤ n ∧ n ≤ taken.length ∧ stem ++ toString n ∉ taken := by
  by_contra none
  -- All of the numbered aliases and the stem would be among fewer taken ones.
  have all_taken : (stem :: (List.range' 1 taken.length).map fun i => stem ++ toString i) ⊆ taken := by
    refine List.cons_subset.mpr ⟨h, fun a ha => ?_⟩
    obtain ⟨i, hi, rfl⟩ := List.mem_map.mp ha
    obtain ⟨from_one, to_length⟩ := List.mem_range'_1.mp hi
    by_contra free
    exact none ⟨i, from_one, by omega, free⟩
  have bound := (nodup_numbered stem taken.length).length_le_of_subset all_taken
  rw [List.length_cons, List.length_map, List.length_range'] at bound
  omega

/-- The numbers from one on whose aliases are free. -/
def freeNumbers (stem : String) (taken : List String) : Set Nat :=
  {n | 1 ≤ n ∧ stem ++ toString n ∉ taken}

/-- If a stem is taken, there is a least free number. -/
theorem exists_isLeast_freeNumbers (h : stem ∈ taken) :
    ∃ n, IsLeast (freeNumbers stem taken) n ∧ n ≤ taken.length := by
  obtain ⟨m, from_one, bound, free⟩ := exists_free_number h
  have some_free : ∃ n, 1 ≤ n ∧ stem ++ toString n ∉ taken := ⟨m, from_one, free⟩
  classical
  have least : IsLeast (freeNumbers stem taken) (Nat.find some_free) := Nat.isLeast_find some_free
  exact ⟨_, least, (least.2 ⟨from_one, free⟩).trans bound⟩

/-! ## New aliases -/

theorem freshAlias_of_mem {n : Nat} (h : aliasStem table ∈ taken)
    (least : IsLeast (freeNumbers (aliasStem table) taken) n) :
    freshAlias table taken = aliasStem table ++ toString n := by
  obtain ⟨⟨from_one, free⟩, first⟩ := least
  obtain ⟨m, hm, bound, m_free⟩ := exists_free_number h
  have found : (List.range' 1 (taken.length + 1)).find?
      ((fun a => decide (a ∉ taken)) ∘ fun n => aliasStem table ++ toString n) = some n := by
    rw [List.find?_range'_eq_some]
    refine ⟨decide_eq_true free, List.mem_range'_1.mpr ⟨from_one, ?_⟩, fun j hj before => ?_⟩
    · have := first ⟨hm, m_free⟩
      omega
    · by_contra j_free
      have := first ⟨hj, by simpa using j_free⟩
      omega
  rw [freshAlias, if_pos h, List.find?_map, found]
  rfl

/-- A new alias is the stem if that is free, and else the stem with the least free number, which is
at most the count of taken aliases. -/
theorem freshAlias_cases (table : String) (taken : List String) :
    (aliasStem table ∉ taken ∧ freshAlias table taken = aliasStem table) ∨
      aliasStem table ∈ taken ∧ ∃ n, IsLeast (freeNumbers (aliasStem table) taken) n ∧
        n ≤ taken.length ∧ freshAlias table taken = aliasStem table ++ toString n := by
  by_cases h : aliasStem table ∈ taken
  · obtain ⟨n, least, bound⟩ := exists_isLeast_freeNumbers h
    exact Or.inr ⟨h, n, least, bound, freshAlias_of_mem h least⟩
  · exact Or.inl ⟨h, if_neg h⟩

/-- A new alias is none of those that are taken. -/
theorem freshAlias_not_mem (table : String) (taken : List String) :
    freshAlias table taken ∉ taken := by
  rcases freshAlias_cases table taken with ⟨free, same⟩ | ⟨-, n, least, -, same⟩
  · rwa [same]
  · rw [same]
    exact least.1.2

/-- A new alias is a stem, or a stem with a number. -/
theorem freshAlias_eq_or (table : String) (taken : List String) :
    freshAlias table taken = aliasStem table ∨
      ∃ n : Nat, freshAlias table taken = aliasStem table ++ toString n := by
  rcases freshAlias_cases table taken with ⟨-, same⟩ | ⟨-, n, -, -, same⟩
  · exact Or.inl same
  · exact Or.inr ⟨n, same⟩

theorem aliasStem_ne_empty (table : String) : aliasStem table ≠ "" := by
  rw [aliasStem]
  split
  · decide
  · rename_i stem nonempty
    intro h
    exact nonempty (String.ofList_eq_empty_iff.mp h)

/-- A new alias is not empty. -/
theorem freshAlias_ne_empty (table : String) (taken : List String) :
    freshAlias table taken ≠ "" := by
  rcases freshAlias_eq_or table taken with same | ⟨n, same⟩
  · rw [same]
    exact aliasStem_ne_empty table
  · simp [same, aliasStem_ne_empty]

/-- An alias for the first table is its stem, which is not empty. -/
theorem freshAlias_nil (table : String) : freshAlias table [] = aliasStem table := by
  simp [freshAlias]

/-! ## Stems -/

/-- A part without a dot that is all of a name or stands behind a dot at its end. -/
def LastPart (name part : List Char) : Prop :=
  '.' ∉ part ∧ (name = part ∨ ∃ before, name = before ++ '.' :: part)

theorem lastPart_afterLastDot (name : List Char) : LastPart name (afterLastDot name) := by
  by_cases dotted : '.' ∈ name
  · obtain ⟨part, before, split, dotless⟩ := List.eq_append_cons_of_mem (List.mem_reverse.mpr dotted)
    have turned : name = before.reverse ++ '.' :: part.reverse := by
      rw [← List.reverse_reverse name, split]
      simp
    have dotless : '.' ∉ part.reverse := mt List.mem_reverse.mp dotless
    rw [turned, afterLastDot_append dotless]
    exact ⟨dotless, Or.inr ⟨_, rfl⟩⟩
  · rw [afterLastDot_eq_self dotted]
    exact ⟨dotted, Or.inl rfl⟩

/-- A stem is the first three ASCII letters or digits of the last part in small letters, or a `t`. -/
theorem toList_aliasStem (table : String) :
    (aliasStem table).toList =
      if (afterLastDot table.toList).any Char.isAlphanum then
        (((afterLastDot table.toList).filter Char.isAlphanum).take 3).map Char.toLower
      else ['t'] := by
  rw [aliasStem, List.map_take]
  generalize afterLastDot table.toList = part
  cases found : part.filter Char.isAlphanum with
  | nil =>
    have none : part.any Char.isAlphanum = false := by
      simpa using List.filter_eq_nil_iff.mp found
    rw [none]
    rfl
  | cons c rest =>
    have some : part.any Char.isAlphanum = true := by
      have mem : c ∈ part.filter Char.isAlphanum := found ▸ List.mem_cons_self ..
      exact List.any_eq_true.mpr ⟨c, List.mem_filter.mp mem⟩
    rw [some, if_pos rfl]
    exact String.toList_ofList

/-! ## Trying one alias after the other -/

/-- The search for an alias from the one that is tried, and the number of the one to try next, to the
one that it ends with. -/
inductive Settles (stem : String) (taken : List String) : String → Nat → String → Prop
  | free {tried : String} {n : Nat} : tried ∉ taken → Settles stem taken tried n tried
  | next {tried found : String} {n : Nat} : tried ∈ taken →
      Settles stem taken (stem ++ toString n) (n + 1) found → Settles stem taken tried n found

namespace Settles

variable {tried found other : String} {n : Nat}

/-- A search ends with one alias only. -/
theorem unique (h : Settles stem taken tried n found) (k : Settles stem taken tried n other) :
    found = other := by
  induction h with
  | free here =>
    cases k with
    | free _ => rfl
    | next there _ => exact absurd there here
  | next there _ ih =>
    cases k with
    | free here => exact absurd there here
    | next _ more => exact ih more

/-- From a number on the search goes through the taken ones up to a free one. -/
theorem numbered (free : stem ++ toString n ∉ taken) {m : Nat} (le : m ≤ n)
    (taken_before : ∀ i, m ≤ i → i < n → stem ++ toString i ∈ taken) :
    Settles stem taken (stem ++ toString m) (m + 1) (stem ++ toString n) := by
  induction le using Nat.decreasingInduction with
  | self => exact .free free
  | of_succ m less ih =>
    exact .next (taken_before m le_rfl less) (ih fun i hi => taken_before i (by omega))

end Settles

/-- Trying one alias after the other ends with the new alias. -/
theorem settles_freshAlias (table : String) (taken : List String) :
    Settles (aliasStem table) taken (aliasStem table) 1 (freshAlias table taken) := by
  rcases freshAlias_cases table taken with ⟨free, same⟩ | ⟨h, n, ⟨⟨from_one, free⟩, first⟩, -, same⟩
  · rw [same]
    exact .free free
  · rw [same]
    refine .next h (Settles.numbered free from_one fun i hi before => ?_)
    by_contra i_free
    exact absurd (first ⟨hi, i_free⟩) (by omega)

/-- The stem of a table is made of the part of its name behind the last dot. Trying the stem and then
the numbers behind it ends, whatever aliases are taken, and it ends with the new alias. That alias is
not taken: it is the stem if that is free, and else the stem with the least free number. -/
theorem freshAlias_least (table : String) (taken : List String) :
    (∃ part, LastPart table.toList part ∧ (aliasStem table).toList =
      if part.any Char.isAlphanum then ((part.filter Char.isAlphanum).take 3).map Char.toLower
      else ['t']) ∧
    (∀ found, Settles (aliasStem table) taken (aliasStem table) 1 found ↔
      found = freshAlias table taken) ∧
    freshAlias table taken ∉ taken ∧
    ((aliasStem table ∉ taken ∧ freshAlias table taken = aliasStem table) ∨
      aliasStem table ∈ taken ∧ ∃ n, IsLeast {n | 1 ≤ n ∧ aliasStem table ++ toString n ∉ taken} n ∧
        n ≤ taken.length ∧ freshAlias table taken = aliasStem table ++ toString n) := by
  refine ⟨⟨_, lastPart_afterLastDot table.toList, toList_aliasStem table⟩, fun found => ?_,
    freshAlias_not_mem table taken, freshAlias_cases table taken⟩
  constructor
  · exact fun settles => settles.unique (settles_freshAlias table taken)
  · rintro rfl
    exact settles_freshAlias table taken

example : freshAlias "shop.order_items" ["ord", "ord1", "ord3"] = "ord2" := by decide

end QueryWorkbench
