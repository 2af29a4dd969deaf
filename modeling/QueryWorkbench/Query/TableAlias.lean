/-
QueryWorkbench.Query.TableAlias — the short names that tables go by.

`Clauses.tableAliases` collects the alias of the first table and of every join target, a later
join taking the place of an earlier one on the same table. `freshAlias` makes a new alias from
the first letters of a table's name, numbered when it is taken.
-/
import QueryWorkbench.Assoc
import QueryWorkbench.Query.Basic
import QueryWorkbench.Text.Dotted

namespace QueryWorkbench

/-- The alias of every table of a level, by table. -/
def Clauses.tableAliases {Q : Type} (c : Clauses Q) : List (String × String) :=
  let first := if c.source.table = "" then [] else [(c.source.table, c.source.aliasName)]
  c.joins.foldl (fun acc j => Assoc.put j.targetTable j.targetAlias acc) first

/-- The alias of a table, or the table itself when it has none. -/
def aliasOr (aliases : List (String × String)) (table : String) : String :=
  ((Assoc.get? table aliases).filter (· ≠ "")).getD table

/-- What an alias of a table starts with: the first three ASCII letters or digits of the bare
name in small letters, or a `t` when there is none. -/
def aliasStem (table : String) : String :=
  match (((Text.afterLastDot table.toList).filter Char.isAlphanum).map Char.toLower).take 3 with
  | [] => "t"
  | stem => String.ofList stem

/-- An alias that is not taken: the stem, or else the stem with the least number from one on.
Among one more number than there are taken aliases one is free. -/
def freshAlias (table : String) (taken : List String) : String :=
  let stem := aliasStem table
  if stem ∈ taken then
    (((List.range' 1 (taken.length + 1)).map fun n => stem ++ toString n).find?
      (fun a => decide (a ∉ taken))).getD stem
  else stem

end QueryWorkbench
