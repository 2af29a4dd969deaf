/-
QueryWorkbench.Settings — settings taken from environment variables.

A setting named `f` is read from the variable whose name is `querylens_f` in any case, by the
rules for text in documents; of several such variables the last one counts. Faults are located
by the name of the setting.
-/
import QueryWorkbench.Document.Reader
import QueryWorkbench.Failure
import QueryWorkbench.Text.LowerCase

namespace QueryWorkbench

open Document

/-- The environment: names and values of variables. -/
abbrev Environment := List (String × String)

/-- What every variable of this program starts with. -/
def variableStem : List Char := "querylens_".toList

/-- The settings that are given, by name. -/
def Environment.settings (env : Environment) : Members :=
  Assoc.putAll [] (env.filterMap fun (name, value) =>
    let lowered := Text.lowerChars name.toList
    if variableStem.isPrefixOf lowered then
      some (String.ofList (lowered.drop variableStem.length), .str value)
    else none)

/-- A setting with its default. -/
def setting {α : Type} (name : String) (read : Reader α) (absent : α) (given : Members) :
    Validated α :=
  optional ⟨name, name⟩ read absent given

/-- The dialect and the layout when none is asked for. -/
structure GeneratorSettings where
  dialect : String := "mysql"
  pretty : Bool := true

/-- The limits of path searches. -/
structure ResolverSettings where
  maxPathDepth : Nat := 5
  bestPathDepth : Nat := 3

/-- The limits of SQL analysis. -/
structure AnalyzerSettings where
  maxLength : Nat := 200000
  maxMatches : Nat := 5000
  maxDepth : Nat := 32

/-- Reads the generator's settings. -/
def GeneratorSettings.read (env : Environment) : Except Failure GeneratorSettings :=
  let given := env.settings
  let settings := GeneratorSettings.mk <$> setting "default_dialect" readText "mysql" given
    <*> setting "pretty" readTruth true given
  settings.toExcept.mapError .document

/-- Reads the limits of path searches. -/
def ResolverSettings.read (env : Environment) : Except Failure ResolverSettings :=
  let given := env.settings
  let settings := ResolverSettings.mk
    <$> setting "max_path_depth" (readBounded 1 (some 12)) 5 given
    <*> setting "best_path_depth" (readBounded 1 (some 12)) 3 given
  settings.toExcept.mapError .document

/-- Reads the limits of SQL analysis. -/
def AnalyzerSettings.read (env : Environment) : Except Failure AnalyzerSettings :=
  let given := env.settings
  let settings := AnalyzerSettings.mk
    <$> setting "max_sql_length" (readBounded 1 none) 200000 given
    <*> setting "max_matches_per_pass" (readBounded 1 none) 5000 given
    <*> setting "max_subquery_depth" (readBounded 0 none) 32 given
  settings.toExcept.mapError .document

end QueryWorkbench
