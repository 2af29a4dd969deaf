/-
QueryWorkbench.Sql.Generator — generators of SQL for a dialect and a layout.

What is not asked for comes from the settings, which are read in any case: faulty settings fail
even when nothing is taken from them.
-/
import QueryWorkbench.Query.Reader
import QueryWorkbench.Settings
import QueryWorkbench.Sql.Generate

namespace QueryWorkbench.Sql

/-- A dialect and a layout to generate SQL in. -/
structure Generator where
  dialect : Dialect
  layout : Layout

namespace Generator

/-- The generator for what is asked for. An empty dialect counts as none. -/
def choose (env : Environment) (dialect : Option String) (pretty : Option Bool) :
    Except Failure Generator := do
  let settings ← GeneratorSettings.read env
  let asked := (given dialect).getD settings.dialect
  match Dialect.ofName? asked with
  | some d => .ok ⟨d, if pretty.getD settings.pretty then .pretty else .compact⟩
  | none => .error (.unsupportedDialect ((dialect.map Text.quoted).getD "None"))

/-- A dialect that is asked for by its name is taken, whatever the settings are. -/
theorem choose_name (env : Environment) (d : Dialect) (pretty : Option Bool) :
    choose env (some d.name) pretty = (GeneratorSettings.read env).map fun settings =>
      ⟨d, if pretty.getD settings.pretty then .pretty else .compact⟩ := by
  have asked : given (some d.name) = some d.name := by cases d <;> decide
  have found : Dialect.ofName? d.name = some d := by cases d <;> decide
  cases read : GeneratorSettings.read env <;>
    simp [choose, read, asked, found, bind, Except.bind, Except.map]

/-- The SQL of a query. -/
def text (g : Generator) (q : Query) : String := generate g.dialect g.layout q

end Generator

/-- The SQL of a query document. A document that is no object fails after the choice of the
dialect, one that is a faulty object before it. -/
def generateDocument (env : Environment) (document : Json) (dialect : Option String)
    (pretty : Option Bool) : Except Failure String :=
  match document with
  | .obj _ => do
    let q ← (Query.read document).toExcept.mapError .document
    let g ← Generator.choose env dialect pretty
    .ok (g.text q)
  | other => do
    let _ ← Generator.choose env dialect pretty
    .error (.notQuery other.kindName)

end QueryWorkbench.Sql
