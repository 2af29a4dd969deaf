/-
QueryWorkbench.Text.Blank — blank characters, trimming and squeezing.

`isBlank` is the set of white space that text functions of this library share: the Unicode white
space and the four ASCII information separators. `trim` removes blanks from both ends, `squeeze`
turns each run of blanks into one space; both are defined so that induction on the text unfolds
them one character at a time.
-/

namespace QueryWorkbench.Text

/-- The characters with the Unicode property of white space. -/
def isWhiteSpace (c : Char) : Bool :=
  let n := c.toNat
  if n < 128 then n == 32 || (9 ≤ n && n ≤ 13)
  else n == 0x85 || n == 0xA0 || n == 0x1680 || (0x2000 ≤ n && n ≤ 0x200A) ||
    n == 0x2028 || n == 0x2029 || n == 0x202F || n == 0x205F || n == 0x3000

/-- White space and the four ASCII separators. -/
def isBlank (c : Char) : Bool := isWhiteSpace c || (28 ≤ c.toNat && c.toNat ≤ 31)

/-- The text without the characters of a set at its start and at its end. -/
def trimBy (p : Char → Bool) (s : List Char) : List Char :=
  ((s.dropWhile p).reverse.dropWhile p).reverse

/-- The text without the blanks at its start and at its end. -/
def trim (s : List Char) : List Char := trimBy isBlank s

/-- Puts a character before a squeezed text: a blank becomes a space and is dropped before
another one. -/
def squeezeOnto (c : Char) (rest : List Char) : List Char :=
  if isBlank c then
    if rest.head? = some ' ' then rest else ' ' :: rest
  else c :: rest

/-- Every run of blanks turned into one space. -/
def squeeze (s : List Char) : List Char := s.foldr squeezeOnto []

@[simp] theorem squeeze_nil : squeeze [] = [] := rfl

@[simp] theorem squeeze_cons (c : Char) (s : List Char) :
    squeeze (c :: s) = squeezeOnto c (squeeze s) := rfl

end QueryWorkbench.Text
