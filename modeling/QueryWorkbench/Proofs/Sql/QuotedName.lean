/-
QueryWorkbench.Proofs.Sql.QuotedName — quoted names read back.

`readName?` reads a name from where its opening quote stands, and `readNames?` names with dots
between them. A quoted name is read to its very end, whatever quotes and dots are in it, and nothing
else is read as that name; a table is read as the names it is made of (`quote_reads_back`). So no
name gets out of its quotes.

## How the proof goes

Both dialects double the closing quote inside a name, and the reader goes to the first closing quote
that is not doubled (`untilQuote?`). What is in front of it is a doubled text and nothing else,
which makes `readName?_eq_some_iff` an equivalence for any name and any text behind. For names with
dots the reader is called again behind each dot; a table is written as its names with dots between
them, so that `readsAs_intercalate_quote` is an induction on the list of names (`ReadsAs` says that
they are read with any text behind that goes on with no quote and no dot).

## The side conditions

What is behind a name may not start with its closing quote, which would double the last one. A table
without a schema of its own is taken apart at its first dot, so the names are given as what is in
front of this dot, without another one, and what is behind it. An empty schema counts as none.
-/
import QueryWorkbench.Proofs.Text.Quotation
import QueryWorkbench.Sql.Dialect

namespace QueryWorkbench.Dialect

open Text

variable {d : Dialect} {name : String} {t rest : List Char}

/-! ## One name -/

/-- Reads a name in quotes: the name, and what is behind its closing quote. -/
def readName? (d : Dialect) (t : List Char) : Option (String × List Char) :=
  (quotation? d.opening d.closing t).map fun (s, rest) => (String.ofList s, rest)

/-- A name is read from its quoted form, with anything behind it but a further closing quote, and
from no other text. -/
theorem readName?_eq_some_iff : d.readName? t = some (name, rest) ↔
    t = (d.quote name).toList ++ rest ∧ rest.head? ≠ some d.closing := by
  have quoted : (d.quote name).toList ++ rest =
      d.opening :: (doubled d.closing name.toList ++ d.closing :: rest) := by
    simp [quote, quoteChars]
  rw [quoted, ← quotation?_eq_some_iff, readName?, Option.map_eq_some_iff]
  constructor
  · rintro ⟨⟨s, behind⟩, read, same⟩
    obtain ⟨rfl, rfl⟩ := Prod.mk.inj same
    rw [read, String.toList_ofList]
  · intro read
    exact ⟨_, read, by simp only [String.ofList_toList]⟩

theorem length_lt_of_readName? (read : d.readName? t = some (name, rest)) :
    rest.length < t.length := by
  have split := (readName?_eq_some_iff.mp read).1
  rw [split, quote, String.toList_ofList, quoteChars, List.length_append, List.length_cons]
  omega

/-! ## Names with dots between them -/

/-- Reads names with dots between them, at least one: the names, and what is behind the last. -/
def readNames? (d : Dialect) (t : List Char) : Option (List String × List Char) :=
  match _read : d.readName? t with
  | none => none
  | some (name, rest) =>
    if rest.head? = some '.' then
      (d.readNames? rest.tail).map fun (names, behind) => (name :: names, behind)
    else some ([name], rest)
termination_by t.length
decreasing_by
  have shorter := length_lt_of_readName? _read
  rw [List.length_tail]
  omega

theorem readNames?_of_readName? (read : d.readName? t = some (name, rest)) :
    d.readNames? t = if rest.head? = some '.' then
        (d.readNames? rest.tail).map fun (names, behind) => (name :: names, behind)
      else some ([name], rest) := by
  rw [readNames?]
  split
  · rename_i none
    rw [none] at read
    cases read
  · rename_i other
    rw [read] at other
    obtain ⟨rfl, rfl⟩ := Prod.mk.inj (Option.some.inj other)
    rfl

/-- A text is read as these names when nothing behind it goes on with a name. -/
def ReadsAs (d : Dialect) (text : String) (names : List String) : Prop :=
  ∀ rest : List Char, rest.head? ≠ some d.closing → rest.head? ≠ some '.' →
    d.readNames? (text.toList ++ rest) = some (names, rest)

/-- Quoted names with dots between them are read as these names. -/
theorem readsAs_intercalate_quote {names : List String} (nonempty : names ≠ []) :
    d.ReadsAs (".".intercalate (names.map d.quote)) names := by
  intro rest ended dotless
  induction names with
  | nil => exact absurd rfl nonempty
  | cons name names ih =>
    cases names with
    | nil =>
      rw [List.map_singleton, String.intercalate_singleton,
        readNames?_of_readName? (readName?_eq_some_iff.mpr ⟨rfl, ended⟩), if_neg dotless]
    | cons next names =>
      have more := ih (List.cons_ne_nil _ _)
      generalize behind : (".".intercalate ((next :: names).map d.quote)).toList ++ rest = t at more
      have split : (".".intercalate ((name :: next :: names).map d.quote)).toList ++ rest =
          (d.quote name).toList ++ '.' :: t := by
        rw [← behind]
        simp [String.intercalate_cons_cons]
      have apart : ('.' :: t).head? ≠ some d.closing := by cases d <;> simp [closing]
      rw [split, readNames?_of_readName? (readName?_eq_some_iff.mpr ⟨rfl, apart⟩), List.head?_cons,
        if_pos rfl, List.tail_cons, more]
      rfl

/-- Unquoting gives every name back; a quoted name is read to its end and to no other place; and a
table is read as its schema and its name or, without a schema of its own, as the parts around its
first dot. -/
theorem quote_reads_back (d : Dialect) :
    (∀ name, d.unquote (d.quote name) = name) ∧
    (∀ name t rest, d.readName? t = some (name, rest) ↔
      t = (d.quote name).toList ++ rest ∧ rest.head? ≠ some d.closing) ∧
    (∀ table schema, schema ≠ "" → d.ReadsAs (d.qualified table (some schema)) [schema, table]) ∧
    ∀ own ∈ [none, some ""],
      (∀ before after, '.' ∉ before.toList →
        d.ReadsAs (d.qualified (before ++ "." ++ after) own) [before, after]) ∧
      ∀ table, '.' ∉ table.toList → d.ReadsAs (d.qualified table own) [table] := by
  refine ⟨d.unquote_quote, fun name t rest => readName?_eq_some_iff, ?_, ?_⟩
  · intro table schema nonempty
    rw [qualified, nameParts_some nonempty]
    exact readsAs_intercalate_quote (List.cons_ne_nil _ _)
  · intro own absent
    have none : own.filter (· ≠ "") = none := by
      rcases List.mem_cons.mp absent with rfl | absent
      · rfl
      · rw [List.mem_singleton.mp absent]
        rfl
    refine ⟨fun before after dotless => ?_, fun table dotless => ?_⟩
    · rw [qualified, nameParts_dotted none dotless]
      exact readsAs_intercalate_quote (List.cons_ne_nil _ _)
    · rw [qualified, nameParts_dotless none dotless]
      exact readsAs_intercalate_quote (List.cons_ne_nil _ _)

/-- Names that try to end their quotes early, and one that could be taken for two. -/
theorem quote_reads_back_hostile :
    let behind := " AS t WHERE 1 = 1".toList
    (sqlServer.quote "a] = 1 --]" = "[a]] = 1 --]]]" ∧
      sqlServer.readName? ((sqlServer.quote "a] = 1 --]").toList ++ behind) =
        some ("a] = 1 --]", behind)) ∧
    (sqlServer.qualified "b].[c" (some "a.b") = "[a.b].[b]].[c]" ∧ "a.b" ≠ "" ∧
      sqlServer.readNames? ((sqlServer.qualified "b].[c" (some "a.b")).toList ++ behind) =
        some (["a.b", "b].[c"], behind)) ∧
    (mysql.qualified ("\x60" ++ "." ++ "c.\x60") none = "\x60\x60\x60\x60.\x60c.\x60\x60\x60" ∧
      '.' ∉ "\x60".toList ∧
      mysql.readNames? ((mysql.qualified ("\x60" ++ "." ++ "c.\x60") none).toList ++ behind) =
        some (["\x60", "c.\x60"], behind)) := by
  intro behind
  refine ⟨⟨by decide, ?_⟩, ⟨by decide, by decide, ?_⟩, by decide, by decide, ?_⟩
  · exact ((quote_reads_back sqlServer).2.1 _ _ _).mpr ⟨rfl, by decide⟩
  · exact (quote_reads_back sqlServer).2.2.1 _ _ (by decide) _ (by decide) (by decide)
  · exact ((quote_reads_back mysql).2.2.2 none (by decide)).1 _ _ (by decide) _ (by decide)
      (by decide)

end QueryWorkbench.Dialect
