/-
QueryWorkbench.Text.Doubled — text inside quotes, with the closing quote written twice.

`doubled` writes a quote inside the text twice and `halved` takes each pair back to one quote;
`halved_doubled` says that the second undoes the first.
-/

namespace QueryWorkbench.Text

/-- Writes every `quote` twice. -/
def doubled (quote : Char) : List Char → List Char
  | [] => []
  | c :: rest => if c = quote then quote :: quote :: doubled quote rest else c :: doubled quote rest

/-- Takes each pair of `quote` to a single one, from the left. -/
def halved (quote : Char) : List Char → List Char
  | [] => []
  | [c] => [c]
  | c :: d :: rest =>
    if c = quote && d = quote then quote :: halved quote rest else c :: halved quote (d :: rest)

theorem halved_cons_of_ne {quote c : Char} (h : c ≠ quote) (s : List Char) :
    halved quote (c :: s) = c :: halved quote s := by
  cases s <;> simp [halved, h]

/-- Halving undoes doubling. -/
theorem halved_doubled (quote : Char) (s : List Char) : halved quote (doubled quote s) = s := by
  induction s with
  | nil => rfl
  | cons c rest ih =>
    by_cases h : c = quote
    · simp [doubled, halved, h, ih]
    · simp [doubled, h, halved_cons_of_ne h, ih]

end QueryWorkbench.Text
