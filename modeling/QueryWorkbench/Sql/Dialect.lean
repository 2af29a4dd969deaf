/-
QueryWorkbench.Sql.Dialect — the SQL dialects and how they quote names.

A name is put between the dialect's quotes, and a closing quote inside it is written twice.
`unquote_quote` says that nothing is lost.
-/
import QueryWorkbench.Failure
import QueryWorkbench.Text.Dotted
import QueryWorkbench.Text.Doubled
import QueryWorkbench.Text.LowerCase
import QueryWorkbench.Text.Quoted

namespace QueryWorkbench

/-- The dialects that SQL is generated for. -/
inductive Dialect where
  | mysql
  | sqlServer
deriving DecidableEq

namespace Dialect

open Text

/-- The name of a dialect. -/
def name : Dialect → String
  | mysql => "mysql"
  | sqlServer => "sqlserver"

/-- Every dialect. -/
def all : List Dialect := [mysql, sqlServer]

/-- A dialect by its name, in any case. -/
def ofName? (s : String) : Option Dialect := all.find? fun d => d.name == lower s

/-- A dialect by its name; another name fails and is shown in lower case. -/
def ofName (s : String) : Except Failure Dialect :=
  match ofName? s with
  | some d => .ok d
  | none => .error (.unknownName (quoted (lower s)) .dialect)

/-- The quote before a name. -/
def opening : Dialect → Char
  | mysql => '\x60'
  | sqlServer => '['

/-- The quote after a name. -/
def closing : Dialect → Char
  | mysql => '\x60'
  | sqlServer => ']'

/-- A name between quotes, as characters. -/
def quoteChars (d : Dialect) (s : List Char) : List Char :=
  d.opening :: (doubled d.closing s ++ [d.closing])

/-- A name between quotes. -/
def quote (d : Dialect) (s : String) : String := String.ofList (d.quoteChars s.toList)

/-- What stands between the quotes; text without quotes around it is left alone. -/
def unquoteChars (d : Dialect) (s : List Char) : List Char :=
  if s.head? = some d.opening && s.getLast? = some d.closing then
    halved d.closing (s.drop 1).dropLast
  else s

/-- The name that stands between quotes. -/
def unquote (d : Dialect) (s : String) : String := String.ofList (d.unquoteChars s.toList)

/-- The parts of a table's name: the schema, if there is one, and the table. Without a schema of
its own a table name is split at its first dot. -/
def nameParts (table : String) (schema : Option String) : List String :=
  match schema.filter (· ≠ "") with
  | some s => [s, table]
  | none =>
    match splitFirstDot? table.toList with
    | some (before, after) => [String.ofList before, String.ofList after]
    | none => [table]

/-- A table with its schema, each part between quotes. -/
def qualified (d : Dialect) (table : String) (schema : Option String) : String :=
  ".".intercalate ((nameParts table schema).map d.quote)

/-! ## Parts of a table's name -/

section

variable {table before schema : String} {own : Option String}

theorem nameParts_some (nonempty : schema ≠ "") : nameParts table (some schema) = [schema, table] := by
  rw [nameParts, Option.filter_some, if_pos (decide_eq_true nonempty)]

theorem nameParts_dotless (none : own.filter (· ≠ "") = none) (dotless : '.' ∉ table.toList) :
    nameParts table own = [table] := by
  rw [nameParts, none, splitFirstDot?_eq_none dotless]

/-- Without a schema of its own the parts of a table are the texts around the first dot. -/
theorem nameParts_dotted (none : own.filter (· ≠ "") = none) (dotless : '.' ∉ before.toList)
    (after : String) : nameParts (before ++ "." ++ after) own = [before, after] := by
  have text : (before ++ "." ++ after).toList = before.toList ++ '.' :: after.toList := by simp
  rw [nameParts, none, text, splitFirstDot?_append dotless]
  simp only [String.ofList_toList]

end

/-! ## Quoted names -/

theorem unquoteChars_quoteChars (d : Dialect) (s : List Char) :
    d.unquoteChars (d.quoteChars s) = s := by
  have last : (d.quoteChars s).getLast? = some d.closing := by
    rw [quoteChars, ← List.cons_append, List.getLast?_concat]
  rw [unquoteChars, last]
  simp [quoteChars, halved_doubled]

/-- Unquoting a quoted name gives the name. -/
theorem unquote_quote (d : Dialect) (s : String) : d.unquote (d.quote s) = s := by
  simp [unquote, quote, unquoteChars_quoteChars]

end Dialect

end QueryWorkbench
