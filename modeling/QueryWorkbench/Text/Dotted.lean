/-
QueryWorkbench.Text.Dotted — names made of parts with dots between them.

`splitFirstDot?` divides a text without dots from what comes behind a dot
(`splitFirstDot?_append`), and it divides nothing else (`splitFirstDot?_eq_none`). `afterLastDot`
leaves a text without dots as it is, and of any other one what comes behind the last dot
(`afterLastDot_append`).
-/

namespace QueryWorkbench.Text

/-- The part after the last dot; the whole name when it has none. -/
def afterLastDot (s : List Char) : List Char := (s.reverse.takeWhile (· ≠ '.')).reverse

/-- The parts before and after the first dot, if there is one. -/
def splitFirstDot? (s : List Char) : Option (List Char × List Char) :=
  match s.dropWhile (· ≠ '.') with
  | [] => none
  | _ :: rest => some (s.takeWhile (· ≠ '.'), rest)

/-- The unqualified name of a table: the part after the last dot. -/
def bareName (s : String) : String := String.ofList (afterLastDot s.toList)

section

variable {s : List Char} (dotless : '.' ∉ s)
include dotless

theorem ne_dot_of_not_mem : ∀ c ∈ s, decide (c ≠ '.') = true := fun _ hc =>
  decide_eq_true fun dot => dotless (dot ▸ hc)

theorem splitFirstDot?_eq_none : splitFirstDot? s = none := by
  rw [splitFirstDot?, ← List.append_nil s, List.dropWhile_append_of_pos (ne_dot_of_not_mem dotless)]
  rfl

theorem splitFirstDot?_append (t : List Char) : splitFirstDot? (s ++ '.' :: t) = some (s, t) := by
  rw [splitFirstDot?, List.dropWhile_append_of_pos (ne_dot_of_not_mem dotless),
    List.takeWhile_append_of_pos (ne_dot_of_not_mem dotless)]
  simp

theorem takeWhile_reverse_append (t : List Char) :
    (s.reverse ++ t).takeWhile (· ≠ '.') = s.reverse ++ t.takeWhile (· ≠ '.') :=
  List.takeWhile_append_of_pos fun c hc => ne_dot_of_not_mem dotless c (List.mem_reverse.mp hc)

theorem afterLastDot_eq_self : afterLastDot s = s := by
  have whole := takeWhile_reverse_append dotless []
  rw [List.append_nil, List.takeWhile_nil, List.append_nil] at whole
  rw [afterLastDot, whole, List.reverse_reverse]

theorem afterLastDot_append (t : List Char) : afterLastDot (t ++ '.' :: s) = s := by
  rw [afterLastDot, List.reverse_append, List.reverse_cons, List.append_assoc,
    takeWhile_reverse_append dotless]
  simp

end

end QueryWorkbench.Text
