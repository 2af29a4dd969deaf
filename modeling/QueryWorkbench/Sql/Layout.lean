/-
QueryWorkbench.Sql.Layout — generated SQL as tokens with gaps between them.

SQL is generated once, as a list of fragments. A fragment is a run of tokens that nothing stands
between; the layout only decides what stands in the gaps: the compact layout puts one space
everywhere, the pretty one breaks lines and indents. The aliases that columns stand under and the
aliases that tables get are tokens of their own, and so are names, which the dialect quotes.
-/
import QueryWorkbench.Sql.Dialect
import QueryWorkbench.Sql.Literal

namespace QueryWorkbench.Sql

/-! ## Tokens -/

/-- The tokens of generated SQL. -/
inductive Token where
  /-- A keyword, a number or a sign. -/
  | word (s : String)
  /-- A name, written between the dialect's quotes. -/
  | name (s : String)
  /-- What a column is written under, up to the dot. -/
  | owner (aliasName : String)
  /-- The alias that a table gets. -/
  | declared (aliasName : String)
  /-- A value, written as a literal. -/
  | value (v : Json)
  /-- Text that is copied: expressions, custom conditions and nested queries. -/
  | raw (s : String)

/-- The text of a token. -/
def Token.text (d : Dialect) : Token → String
  | word s => s
  | name s => d.quote s
  | owner a => a ++ "."
  | declared a => a
  | value v => literal v
  | raw s => s

/-- Tokens that nothing stands between. -/
abbrev Phrase := List Token

/-- The text of a phrase. -/
def Phrase.text (d : Dialect) (p : Phrase) : String := String.join (p.map (Token.text d))

/-! ## Fragments -/

/-- How generated SQL is laid out. -/
inductive Layout where
  | compact
  | pretty
deriving DecidableEq

/-- What separates a fragment from the one before it. -/
inductive Gap where
  | space
  | line
  | indented
  | deeper
deriving DecidableEq

/-- The text of a gap. -/
def Gap.text : Layout → Gap → String
  | .compact, _ => " "
  | .pretty, space => " "
  | .pretty, line => "\n"
  | .pretty, indented => "\n  "
  | .pretty, deeper => "\n    "

/-- A phrase and the gap in front of it. -/
structure Fragment where
  gap : Gap
  phrase : Phrase

/-- Phrases in a row, with a gap in front of the first one and spaces between them. -/
def row (gap : Gap) : List Phrase → List Fragment
  | [] => []
  | p :: rest => ⟨gap, p⟩ :: rest.map (⟨.space, ·⟩)

/-- The fragments one after the other; the gap of the first one is not written. -/
def render (d : Dialect) (layout : Layout) : List Fragment → String
  | [] => ""
  | f :: rest =>
    f.phrase.text d ++ String.join (rest.map fun g => g.gap.text layout ++ g.phrase.text d)

end QueryWorkbench.Sql
