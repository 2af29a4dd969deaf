/-
QueryWorkbench.Proofs.Text.LetterCase — texts with small letters in the place of ASCII capitals.

`Char.toLower` turns the capitals of ASCII into small letters and leaves every other character
alone. So a function has the same value before and after if it has for each of the twenty-six pairs
of letters (`apply_toLower`). No class of characters that texts are read by tells the two texts
apart, and their lower case is the same (`lower_toLower`).
-/
import QueryWorkbench.Text.Blank
import QueryWorkbench.Text.Digit
import QueryWorkbench.Text.Keyword
import QueryWorkbench.Text.LowerCase
import QueryWorkbench.Text.Word

namespace QueryWorkbench.Text

/-! ## Characters -/

/-- What is the same for each capital and its small letter is the same for a character and what
becomes of it. -/
theorem apply_toLower {β : Type} (f : Char → β)
    (pairs : ∀ n < 26, f (Char.ofNat (97 + n)) = f (Char.ofNat (65 + n))) (c : Char) :
    f c.toLower = f c := by
  by_cases capital : c.val ≥ 'A'.val ∧ c.val ≤ 'Z'.val
  · have small : ∀ n < 26, (Char.ofNat (65 + n)).toLower = Char.ofNat (97 + n) := by decide
    have least : 65 ≤ c.toNat := UInt32.le_iff_toNat_le.mp capital.1
    have most : c.toNat ≤ 90 := UInt32.le_iff_toNat_le.mp capital.2
    obtain ⟨n, hn, here⟩ : ∃ n < 26, c.toNat = 65 + n := ⟨c.toNat - 65, by omega, by omega⟩
    rw [← Char.ofNat_toNat c, here, small n hn]
    exact pairs n hn
  · have same : c.toLower = c := dif_neg capital
    rw [same]

theorem isWord_toLower (c : Char) : isWord c.toLower = isWord c :=
  apply_toLower isWord (by decide) c

theorem isBlank_toLower (c : Char) : isBlank c.toLower = isBlank c :=
  apply_toLower isBlank (by decide) c

theorem isDigit_toLower (c : Char) : isDigit c.toLower = isDigit c :=
  apply_toLower isDigit (by decide) c

theorem keywordLetter_toLower (c : Char) : keywordLetter c.toLower = keywordLetter c :=
  apply_toLower keywordLetter (by decide) c

/-- A character that is no letter is not made of another one. -/
theorem toLower_eq_iff {k : Char} (other : k.isAlpha = false) {c : Char} :
    c.toLower = k ↔ c = k := by
  have letters : ∀ n < 26, (Char.ofNat (97 + n)).isAlpha = true ∧
      (Char.ofNat (65 + n)).isAlpha = true := by decide
  refine iff_of_eq (apply_toLower (· = k) (fun n hn => propext (iff_of_false ?_ ?_)) c)
  · rintro rfl
    rw [(letters n hn).1] at other
    cases other
  · rintro rfl
    rw [(letters n hn).2] at other
    cases other

theorem head?_toLower_eq_iff {k : Char} (other : k.isAlpha = false) {s : List Char} :
    (s.map Char.toLower).head? = some k ↔ s.head? = some k := by
  rw [List.head?_map, Option.map_eq_some_iff]
  simp only [toLower_eq_iff other, exists_eq_right]

theorem takeWhile_isWord_toLower (s : List Char) :
    (s.map Char.toLower).takeWhile isWord = (s.takeWhile isWord).map Char.toLower := by
  rw [List.takeWhile_map, funext isWord_toLower (f := isWord ∘ Char.toLower)]

/-! ## Lower case -/

theorem isCased_toLower (c : Char) : isCased c.toLower = isCased c :=
  apply_toLower isCased (by decide +kernel) c

theorem isCaseIgnorable_toLower (c : Char) : isCaseIgnorable c.toLower = isCaseIgnorable c :=
  apply_toLower isCaseIgnorable (by decide +kernel) c

theorem startsCased_toLower (s : List Char) : startsCased (s.map Char.toLower) = startsCased s := by
  induction s with
  | nil => rfl
  | cons c rest ih =>
    rw [List.map_cons, startsCased, startsCased, isCased_toLower, isCaseIgnorable_toLower, ih]

theorem lowerAfter_toLower (s : List Char) (afterCased : Bool) :
    lowerAfter afterCased (s.map Char.toLower) = lowerAfter afterCased s := by
  induction s generalizing afterCased with
  | nil => rfl
  | cons c rest ih =>
    have ascii : c.toLower.toNat < 128 ↔ c.toNat < 128 :=
      iff_of_eq (apply_toLower (·.toNat < 128) (by decide) c)
    have alpha : c.toLower.isAlpha = c.isAlpha := apply_toLower Char.isAlpha (by decide) c
    have small : c.toLower.toLower = c.toLower := apply_toLower Char.toLower (by decide) c
    have lowered : lowerChar c.toLower = lowerChar c :=
      apply_toLower lowerChar (by decide) c
    have dotted : c.toLower = '\u0130' ↔ c = '\u0130' := toLower_eq_iff (by decide)
    have sigma : c.toLower = '\u03A3' ↔ c = '\u03A3' := toLower_eq_iff (by decide)
    simp only [List.map_cons, lowerAfter, ascii, alpha, small, lowered, dotted, sigma,
      isCased_toLower, isCaseIgnorable_toLower, startsCased_toLower, ih]

theorem lowerChars_toLower (s : List Char) : lowerChars (s.map Char.toLower) = lowerChars s :=
  lowerAfter_toLower s false

theorem toList_toLower (s : String) : s.toLower.toList = s.toList.map Char.toLower :=
  String.toList_map

theorem lower_toLower (s : String) : lower s.toLower = lower s := by
  rw [lower, toList_toLower, lowerChars_toLower, lower]

theorem ofList_toLower (s : List Char) :
    String.ofList (s.map Char.toLower) = (String.ofList s).toLower := by
  rw [← String.toList_inj, toList_toLower, String.toList_ofList, String.toList_ofList]

theorem toLower_append (s t : String) : (s ++ t).toLower = s.toLower ++ t.toLower := by
  rw [← String.toList_inj, toList_toLower, String.toList_append, String.toList_append,
    List.map_append, toList_toLower, toList_toLower]

/-! ## Blanks -/

theorem dropWhile_isBlank_toLower (s : List Char) :
    (s.map Char.toLower).dropWhile isBlank = (s.dropWhile isBlank).map Char.toLower := by
  rw [List.dropWhile_map, funext isBlank_toLower (f := isBlank ∘ Char.toLower)]

theorem trim_toLower (s : List Char) : trim (s.map Char.toLower) = (trim s).map Char.toLower := by
  rw [trim, trimBy, dropWhile_isBlank_toLower, ← List.map_reverse, dropWhile_isBlank_toLower,
    ← List.map_reverse, trim, trimBy]

theorem squeeze_toLower (s : List Char) :
    squeeze (s.map Char.toLower) = (squeeze s).map Char.toLower := by
  induction s with
  | nil => rfl
  | cons c rest ih =>
    have space : ((squeeze rest).map Char.toLower).head? = some ' ' ↔
        (squeeze rest).head? = some ' ' := head?_toLower_eq_iff (by decide)
    simp only [List.map_cons, squeeze_cons, ih, squeezeOnto, isBlank_toLower, space]
    split
    · split <;> rfl
    · rfl

end QueryWorkbench.Text
