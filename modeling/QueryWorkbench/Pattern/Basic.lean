/-
QueryWorkbench.Pattern.Basic — patterns of text and how they are matched.

A pattern is data. Matching starts at a place in a text and goes by first success: alternatives
are tried in order, a greedy repetition gives back one character at a time, a lazy one takes one
more. `Pattern.run` hands every way to match a part to what follows the part, which answers or
refuses; the first answer wins. Repetition is only of single characters, so that every pattern is
matched by recursion on the pattern and on the text.
-/
import QueryWorkbench.Assoc
import QueryWorkbench.Text.Blank
import QueryWorkbench.Text.Digit
import QueryWorkbench.Text.Keyword
import QueryWorkbench.Text.Word

namespace QueryWorkbench

/-- Sets of characters that patterns name. -/
inductive CharSet where
  /-- A letter of a keyword, in any case; the letter is given in small form. -/
  | letter (c : Char)
  | exact (c : Char)
  | word
  | blank
  | digit
  | any
  | except (cs : List Char)
deriving DecidableEq

namespace CharSet

/-- Membership in a set. -/
def has : CharSet → Char → Bool
  | letter k, c => Text.keywordLetter c == k
  | exact k, c => c == k
  | word, c => Text.isWord c
  | blank, c => Text.isBlank c
  | digit, c => Text.isDigit c
  | any, _ => true
  | except cs, c => !cs.contains c

end CharSet

/-- A place in a text: the character before it, how many there are before it, and the rest. -/
structure Place where
  before : Option Char
  position : Nat
  rest : List Char
deriving DecidableEq

namespace Place

/-- The start of a text. -/
def start (text : List Char) : Place := ⟨none, 0, text⟩

/-- Whether a word begins or ends here. -/
def atWordEdge (p : Place) : Bool :=
  p.before.any Text.isWord != p.rest.head?.any Text.isWord

/-- The place some characters further on, or the end of the text. -/
def skip : Nat → Place → Place
  | n + 1, ⟨_, position, c :: rest⟩ => skip n ⟨some c, position + 1, rest⟩
  | _, p => p

end Place

/-- Patterns; `σ` names the parts of a match that are kept. -/
inductive Pattern (σ : Type) where
  | nothing
  | one (set : CharSet)
  | seq (first second : Pattern σ)
  | or (first second : Pattern σ)
  | option (inner : Pattern σ)
  | greedy (set : CharSet)
  | lazy (set : CharSet)
  | keep (slot : σ) (inner : Pattern σ)
  | ahead (inner : Pattern σ)
  | notAhead (inner : Pattern σ)
  | wordEdge
  | finish

/-- A part of a text: where it starts and how long it is. -/
structure Span where
  start : Place
  length : Nat
deriving DecidableEq

/-- The characters of a span. -/
def Span.chars (s : Span) : List Char := s.start.rest.take s.length

/-- The parts kept so far, the latest first. -/
abbrev Kept (σ : Type) := List (σ × Span)

/-- The places that a greedy repetition can end at, the furthest first, in front of `nearer`. -/
def greedyEnds (set : CharSet) (position : Nat) : List Char → List Place → List Place
  | [], nearer => nearer
  | c :: rest, nearer =>
    if set.has c then
      greedyEnds set (position + 1) rest (⟨some c, position + 1, rest⟩ :: nearer)
    else nearer

/-- The first answer at the places that a lazy repetition can end at, the nearest first. -/
def firstLazy {β : Type} (set : CharSet) (answer : Place → Option β) (before : Option Char)
    (position : Nat) : List Char → Option β
  | [] => answer ⟨before, position, []⟩
  | c :: rest =>
    match answer ⟨before, position, c :: rest⟩ with
    | some b => some b
    | none =>
      if set.has c then firstLazy set answer (some c) (position + 1) rest else none

namespace Pattern

variable {σ : Type}

/-- Matches a pattern at a place; `next` answers for what follows it. -/
def run : Pattern σ → {β : Type} → (Place → Kept σ → Option β) → Place → Kept σ → Option β
  | nothing, _, next, p, kept => next p kept
  | one set, _, next, ⟨_, position, rest⟩, kept =>
    match rest with
    | c :: rest => if set.has c then next ⟨some c, position + 1, rest⟩ kept else none
    | [] => none
  | seq first second, _, next, p, kept => first.run (second.run next) p kept
  | or first second, _, next, p, kept =>
    match first.run next p kept with
    | some b => some b
    | none => second.run next p kept
  | option inner, _, next, p, kept =>
    match inner.run next p kept with
    | some b => some b
    | none => next p kept
  | greedy set, _, next, p, kept =>
    (greedyEnds set p.position p.rest [p]).findSome? fun q => next q kept
  | lazy set, _, next, p, kept => firstLazy set (fun q => next q kept) p.before p.position p.rest
  | keep slot inner, _, next, p, kept =>
    inner.run (fun q kept => next q ((slot, ⟨p, q.position - p.position⟩) :: kept)) p kept
  | ahead inner, _, next, p, kept =>
    match inner.run (fun _ kept => some kept) p kept with
    | some kept => next p kept
    | none => none
  | notAhead inner, _, next, p, kept =>
    match inner.run (fun _ kept => some kept) p kept with
    | some _ => none
    | none => next p kept
  | wordEdge, _, next, p, kept => if p.atWordEdge then next p kept else none
  | finish, _, next, p, kept => if p.rest.isEmpty then next p kept else none

end Pattern

/-- A match: from where to where, and the parts that were kept. -/
structure Match (σ : Type) where
  start : Place
  stop : Place
  kept : Kept σ

namespace Match

variable {σ : Type} [DecidableEq σ]

/-- The characters kept in a slot, if the slot took part in the match. -/
def part? (m : Match σ) (slot : σ) : Option (List Char) :=
  (Assoc.get? slot m.kept).map Span.chars

/-- The characters kept in a slot, none if the slot took no part in the match. -/
def part (m : Match σ) (slot : σ) : List Char := (m.part? slot).getD []

end Match

end QueryWorkbench
