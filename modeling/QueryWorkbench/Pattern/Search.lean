/-
QueryWorkbench.Pattern.Search — matches of a pattern in a text.

`matchAt?` matches at one place, `search?` finds the first place where the pattern matches, and
`findAll` all matches from left to right that do not overlap. The combinators at the end build
patterns of keywords.
-/
import QueryWorkbench.Pattern.Basic

namespace QueryWorkbench.Pattern

variable {σ : Type}

/-- The match that starts at a place. -/
def matchAt? (p : Pattern σ) (here : Place) : Option (Match σ) :=
  p.run (fun stop kept => some ⟨here, stop, kept⟩) here []

/-- The first match at a place or after it. -/
def searchFrom? (p : Pattern σ) (before : Option Char) (position : Nat) : List Char →
    Option (Match σ)
  | [] => p.matchAt? ⟨before, position, []⟩
  | c :: rest =>
    match p.matchAt? ⟨before, position, c :: rest⟩ with
    | some m => some m
    | none => searchFrom? p (some c) (position + 1) rest

/-- The first match in a text. -/
def search? (p : Pattern σ) (text : List Char) : Option (Match σ) := p.searchFrom? none 0 text

/-- The matches from a place on, none of them before the position `free`; `found` holds those
already found, the latest first. -/
def collect (p : Pattern σ) (free : Nat) (found : List (Match σ)) (before : Option Char)
    (position : Nat) : List Char → List (Match σ)
  | [] => found.reverse
  | c :: rest =>
    if position < free then collect p free found (some c) (position + 1) rest
    else
      match p.matchAt? ⟨before, position, c :: rest⟩ with
      | some m =>
        collect p (max m.stop.position (position + 1)) (m :: found) (some c) (position + 1) rest
      | none => collect p free found (some c) (position + 1) rest

/-- All matches of a pattern that takes at least one character, from left to right, each starting
where the one before it has ended or later. -/
def findAll (p : Pattern σ) (text : List Char) : List (Match σ) := p.collect 0 [] none 0 text

/-- The parts one after the other. -/
def all : List (Pattern σ) → Pattern σ
  | [] => nothing
  | [p] => p
  | p :: rest => seq p (all rest)

/-- The first of the choices that leads to a match. -/
def anyOf (first : Pattern σ) : List (Pattern σ) → Pattern σ
  | [] => first
  | p :: rest => or first (anyOf p rest)

/-- A keyword, in any case. -/
def keyword (word : String) : Pattern σ :=
  all (word.toList.map fun c => one (.letter c.toLower))

/-- One of several keywords. -/
def anyKeyword (words : List String) : Pattern σ :=
  match words with
  | [] => nothing
  | w :: rest => anyOf (keyword w) (rest.map keyword)

/-- One character. -/
def char (c : Char) : Pattern σ := one (.exact c)

/-- Any number of blanks. -/
def blanks : Pattern σ := greedy .blank

/-- One blank or more. -/
def someBlanks : Pattern σ := seq (one .blank) (greedy .blank)

/-- A word: one word character or more. -/
def word : Pattern σ := seq (one .word) (greedy .word)

/-- One digit or more. -/
def digits : Pattern σ := seq (one .digit) (greedy .digit)

/-- One character or more, as few as possible. -/
def someLazy : Pattern σ := seq (one .any) (lazy .any)

/-- A pattern and the edge of a word. -/
def whole (p : Pattern σ) : Pattern σ := seq p wordEdge

end QueryWorkbench.Pattern
