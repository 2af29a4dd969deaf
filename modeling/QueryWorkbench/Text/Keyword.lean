/-
QueryWorkbench.Text.Keyword — letters of keywords in any case.

Keywords are written in ASCII letters and recognised in any case. A few letters beyond ASCII have
the same simple folding as an ASCII letter and count as it: the long s, the Kelvin sign, and the
dotted capital and the dotless small i.
-/

namespace QueryWorkbench.Text

/-- The small ASCII letter that a character counts as in a keyword; other characters stand for
themselves. -/
def keywordLetter (c : Char) : Char :=
  if c.toNat < 128 then c.toLower
  else if c = '\u0130' || c = '\u0131' then 'i'
  else if c = '\u017F' then 's'
  else if c = '\u212A' then 'k'
  else c

/-- The capital of a character found in a keyword. The long s and the dotless i have ASCII
capitals; the dotted capital I and the Kelvin sign are capitals already. -/
def keywordCapital (c : Char) : Char :=
  if c.toNat < 128 then c.toUpper
  else if c = '\u0131' then 'I'
  else if c = '\u017F' then 'S'
  else c

theorem keywordLetter_of_ascii {c : Char} (h : c.toNat < 128) : keywordLetter c = c.toLower := by
  simp [keywordLetter, h]

end QueryWorkbench.Text
