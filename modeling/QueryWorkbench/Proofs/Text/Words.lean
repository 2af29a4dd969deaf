/-
QueryWorkbench.Proofs.Text.Words — the words of a text, and the keywords that it lacks.

`wordsOf` cuts a text at every character that is not of a word. `Lacks` says that none of the
words is, in any case, one of some keywords; it is a fact about each part of a text that ends at
the edge of a word (`lacks_append_cons`), and it rules out that one of the keywords starts
anywhere in the text (`Lacks.not_spells_leading`).
-/
import QueryWorkbench.Text.Blank
import QueryWorkbench.Text.Keyword
import QueryWorkbench.Text.Word

namespace QueryWorkbench.Text

/-! ## Characters -/

/-- The code points of the blanks. -/
def blankPoints : List Nat :=
  [9, 10, 11, 12, 13, 28, 29, 30, 31, 32, 0x85, 0xA0, 0x1680, 0x2000, 0x2001, 0x2002, 0x2003,
    0x2004, 0x2005, 0x2006, 0x2007, 0x2008, 0x2009, 0x200A, 0x2028, 0x2029, 0x202F, 0x205F, 0x3000]

/-- A blank is no character of a word. -/
theorem isWord_of_isBlank {c : Char} (h : isBlank c = true) : isWord c = false := by
  have none_word : ∀ n ∈ blankPoints, isWord (Char.ofNat n) = false := by decide +kernel
  have listed : c.toNat ∈ blankPoints := by
    simp only [isBlank, isWhiteSpace] at h
    simp only [blankPoints, List.mem_cons, List.not_mem_nil, or_false]
    split at h <;> simp at h <;> omega
  rw [← Char.ofNat_toNat c]
  exact none_word _ listed

theorem not_isBlank_of_isWord {c : Char} (word : isWord c = true) : isBlank c = false :=
  Bool.eq_false_iff.mpr fun blank => by simp [isWord_of_isBlank blank] at word

theorem head?_isWord_of_all {w : List Char} (nonempty : w ≠ []) (all : ∀ c ∈ w, isWord c = true)
    (rest : List Char) : (w ++ rest).head?.any isWord = true := by
  obtain ⟨c, w, rfl⟩ := List.exists_cons_of_ne_nil nonempty
  exact all c (List.mem_cons_self ..)

/-- A text that a word character starts starts with no blank. -/
theorem head?_isBlank_of_isWord {w : List Char} (nonempty : w ≠ []) (all : ∀ c ∈ w, isWord c = true)
    (rest : List Char) : (w ++ rest).head?.any isBlank = false := by
  obtain ⟨c, w, rfl⟩ := List.exists_cons_of_ne_nil nonempty
  exact not_isBlank_of_isWord (all c (List.mem_cons_self ..))

/-- A letter of a keyword is a word character in each of its cases. -/
theorem isWord_keywordLetter (c : Char) : isWord (keywordLetter c) = isWord c := by
  by_cases ascii : c.toNat < 128
  · have all : ∀ n < 128, isWord (keywordLetter (Char.ofNat n)) = isWord (Char.ofNat n) := by
      decide +kernel
    rw [← Char.ofNat_toNat c]
    exact all _ ascii
  · rw [keywordLetter, if_neg ascii]
    split
    · rename_i dotted
      rcases Bool.or_eq_true _ _ |>.mp dotted with h | h <;>
        (rw [of_decide_eq_true h]; decide +kernel)
    · split
      · rename_i long
        rw [long]
        decide +kernel
      · split
        · rename_i kelvin
          rw [kelvin]
          decide +kernel
        · rfl

/-! ## Words -/

/-- The word that a text starts with, if it starts with one. -/
def leading (s : List Char) : List Char := s.takeWhile isWord

/-- The words of a text, from left to right. -/
def wordsOf (s : List Char) : List (List Char) :=
  (s.splitOnP fun c => !isWord c).filter (· ≠ [])

theorem wordsOf_append_cons {c : Char} (edge : isWord c = false) (s t : List Char) :
    wordsOf (s ++ c :: t) = wordsOf s ++ wordsOf t := by
  rw [wordsOf, List.splitOnP_append_cons s t (by simp [edge]), List.filter_append]
  rfl

theorem wordsOf_cons {c : Char} (edge : isWord c = false) (t : List Char) :
    wordsOf (c :: t) = wordsOf t := wordsOf_append_cons edge [] t

theorem wordsOf_of_all {w : List Char} (nonempty : w ≠ []) (all : ∀ c ∈ w, isWord c = true) :
    wordsOf w = [w] := by
  rw [wordsOf, List.splitOnP_eq_singleton (fun c hc => by simp [all c hc])]
  simp [nonempty]

section

variable {p : Char → Bool} {w r : List Char}

/-- Characters of a set are the run that a text starts with, if what is behind them is not in it. -/
theorem takeWhile_append_of_all (all : ∀ c ∈ w, p c = true) (edge : r.head?.any p = false) :
    (w ++ r).takeWhile p = w := by
  rw [List.takeWhile_append_of_pos all]
  cases r with
  | nil => simp
  | cons c r =>
    have outside : p c = false := by simpa using edge
    simp [outside]

theorem dropWhile_append_of_all (all : ∀ c ∈ w, p c = true) (edge : r.head?.any p = false) :
    (w ++ r).dropWhile p = r := by
  rw [List.dropWhile_append_of_pos all]
  cases r with
  | nil => rfl
  | cons c r =>
    have outside : p c = false := by simpa using edge
    simp [outside]

/-- What is behind the run does not go on with it. -/
theorem head?_dropWhile_any (p : Char → Bool) (s : List Char) :
    (s.dropWhile p).head?.any p = false := by
  have outside := List.head?_dropWhile_not p s
  cases rest : (s.dropWhile p).head? with
  | none => rfl
  | some c =>
    rw [rest] at outside
    simpa using outside

end

theorem leading_append_of_all {w r : List Char} (all : ∀ c ∈ w, isWord c = true)
    (edge : r.head?.any isWord = false) : leading (w ++ r) = w :=
  takeWhile_append_of_all all edge

/-- Characters of a set at the start of a text belong to the run of them that it starts with. -/
theorem exists_of_append_eq {p : Char → Bool} {w rest a r : List Char}
    (edge : rest.head?.any p = false) (all : ∀ c ∈ a, p c = true) (split : w ++ rest = a ++ r) :
    ∃ t, w = a ++ t ∧ r = t ++ rest := by
  rcases List.append_eq_append_iff.mp split with ⟨t, rfl, more⟩ | ⟨t, rfl, rfl⟩
  · cases t with
    | nil => exact ⟨[], by simp, by simpa using more.symm⟩
    | cons c t =>
      have inside : p c = true := all c (by simp)
      rw [more] at edge
      simp [inside] at edge
  · exact ⟨t, rfl, rfl⟩

/-- What no word starts does not change the leading word of a text in front of it. -/
theorem leading_append {s r : List Char} (edge : r.head?.any isWord = false) :
    leading (s ++ r) = leading s := by
  induction s with
  | nil => exact leading_append_of_all (w := []) (by simp) edge
  | cons c s ih =>
    rw [List.cons_append, leading, leading, List.takeWhile_cons, List.takeWhile_cons]
    split
    · exact congrArg _ ih
    · rfl

/-- What is behind the leading word does not go on with it. -/
theorem exists_leading_append (s : List Char) :
    ∃ r, s = leading s ++ r ∧ r.head?.any isWord = false :=
  ⟨s.dropWhile isWord, (List.takeWhile_append_dropWhile ..).symm, head?_dropWhile_any isWord s⟩

theorem isWord_of_mem_leading {s : List Char} {c : Char} (hc : c ∈ leading s) :
    isWord c = true :=
  List.all_eq_true.mp List.all_takeWhile c hc

theorem leading_mem_wordsOf {s : List Char} (nonempty : leading s ≠ []) :
    leading s ∈ wordsOf s := by
  have all : ∀ c ∈ leading s, isWord c = true := fun _ => isWord_of_mem_leading
  obtain ⟨r, split, edge⟩ := exists_leading_append s
  have found : leading s ∈ wordsOf (leading s ++ r) := by
    cases r with
    | nil => rw [List.append_nil, wordsOf_of_all nonempty all]; exact List.mem_singleton.mpr rfl
    | cons c r =>
      have outside : isWord c = false := by simpa using edge
      rw [wordsOf_append_cons outside, wordsOf_of_all nonempty all]
      exact List.mem_cons_self ..
  rwa [← split] at found

/-- A word that starts somewhere in a text is one of its words. -/
theorem leading_mem_wordsOf_append {a b : List Char} (edge : a.getLast?.any isWord = false)
    (nonempty : leading b ≠ []) : leading b ∈ wordsOf (a ++ b) := by
  rcases List.eq_nil_or_concat a with rfl | ⟨a, c, rfl⟩
  · exact leading_mem_wordsOf nonempty
  · have outside : isWord c = false := by simpa using edge
    rw [List.concat_eq_append, List.append_assoc, List.singleton_append,
      wordsOf_append_cons outside]
    exact List.mem_append_right _ (leading_mem_wordsOf nonempty)

/-! ## Keywords -/

/-- A word is the given keyword, in any case. -/
abbrev Spells (k : String) (w : List Char) : Prop :=
  w.map keywordLetter = k.toList.map Char.toLower

/-- A text without any of the given keywords among its words. -/
def Lacks (ks : List String) (s : List Char) : Prop := ∀ w ∈ wordsOf s, ∀ k ∈ ks, ¬ Spells k w

instance (ks : List String) (s : List Char) : Decidable (Lacks ks s) :=
  inferInstanceAs (Decidable (∀ w ∈ wordsOf s, ∀ k ∈ ks, ¬ Spells k w))

variable {ks js : List String}

theorem lacks_nil : Lacks ks [] := by
  intro w hw
  cases hw

theorem Lacks.mono {s : List Char} (h : Lacks ks s) (sub : ∀ j ∈ js, j ∈ ks) : Lacks js s :=
  fun w hw k hk => h w hw k (sub k hk)

theorem lacks_append_cons {c : Char} (edge : isWord c = false) {s t : List Char} :
    Lacks ks (s ++ c :: t) ↔ Lacks ks s ∧ Lacks ks t := by
  rw [Lacks, wordsOf_append_cons edge]
  exact List.forall_mem_append

theorem lacks_cons {c : Char} (edge : isWord c = false) {t : List Char} :
    Lacks ks (c :: t) ↔ Lacks ks t := by
  rw [Lacks, wordsOf_cons edge]
  rfl

theorem lacks_append_space {s t : List Char} :
    Lacks ks (s ++ ' ' :: t) ↔ Lacks ks s ∧ Lacks ks t := lacks_append_cons (by decide)

theorem lacks_space {t : List Char} : Lacks ks (' ' :: t) ↔ Lacks ks t := lacks_cons (by decide)

/-- What no word starts lacks keywords on its own. -/
theorem lacks_append {s t : List Char} (edge : t.head?.any isWord = false) :
    Lacks ks (s ++ t) ↔ Lacks ks s ∧ Lacks ks t := by
  cases t with
  | nil => simp [lacks_nil]
  | cons c t =>
    have outside : isWord c = false := by simpa using edge
    rw [lacks_append_cons outside, lacks_cons outside]

theorem lacks_of_all {w : List Char} (all : ∀ c ∈ w, isWord c = true)
    (other : ∀ k ∈ ks, ¬ Spells k w) : Lacks ks w := by
  by_cases empty : w = []
  · exact empty ▸ lacks_nil
  · rw [Lacks, wordsOf_of_all empty all]
    intro v hv
    obtain rfl := List.mem_singleton.mp hv
    exact other

/-- A text lacks keywords when each of them has a letter that the text has not. -/
theorem lacks_of_absent {s letters : List Char}
    (hit : ∀ k ∈ ks, ∃ c ∈ letters, c ∈ k.toList.map Char.toLower)
    (absent : ∀ d ∈ s, keywordLetter d ∉ letters) : Lacks ks s := by
  have ended : ∀ w, (∀ c ∈ w, isWord c = true) → (∀ d ∈ w, keywordLetter d ∉ letters) →
      Lacks ks w := by
    intro w word absent
    refine lacks_of_all word fun k hk spelled => ?_
    obtain ⟨c, hc, listed⟩ := hit k hk
    rw [← spelled] at listed
    obtain ⟨d, hd, rfl⟩ := List.mem_map.mp listed
    exact absent d hd hc
  -- Goes over the text with the word `w` that is being read.
  have walk : ∀ t w, (∀ c ∈ w, isWord c = true) → (∀ d ∈ w ++ t, keywordLetter d ∉ letters) →
      Lacks ks (w ++ t) := by
    intro t
    induction t with
    | nil =>
      intro w word absent
      rw [List.append_nil] at absent ⊢
      exact ended w word absent
    | cons c t ih =>
      intro w word absent
      by_cases inside : isWord c = true
      · have grown : ∀ e ∈ w ++ [c], isWord e = true := by
          intro e he
          rcases List.mem_append.mp he with he | he
          · exact word e he
          · exact List.mem_singleton.mp he ▸ inside
        have longer := ih (w ++ [c]) grown (by rwa [List.append_assoc])
        rwa [List.append_assoc] at longer
      · refine (lacks_append_cons (Bool.eq_false_iff.mpr inside)).mpr ⟨?_, ?_⟩
        · exact ended w word fun d hd => absent d (List.mem_append_left _ hd)
        · exact ih [] (by simp) fun d hd => absent d (List.mem_append_right _ (List.mem_cons_of_mem _ hd))
  exact walk s [] (by simp) absent

/-- No keyword that a text lacks starts anywhere in it. -/
theorem Lacks.not_spells_leading {s a b : List Char} (h : Lacks ks s) (split : s = a ++ b)
    (edge : a.getLast?.any isWord = false) (nonempty : leading b ≠ []) :
    ∀ k ∈ ks, ¬ Spells k (leading b) :=
  h _ (split ▸ leading_mem_wordsOf_append edge nonempty)

end QueryWorkbench.Text
