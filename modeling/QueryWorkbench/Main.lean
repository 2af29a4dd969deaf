/-
QueryWorkbench.Main — the command line program.

Reads the files and environment variables that a command may need, runs it and draws what it
shows as plain text. Exit code 2 stands for a command line that is not understood.
-/
import QueryWorkbench.CommandLine.Run

namespace QueryWorkbench.CommandLine

/-- The settings that the environment can hold. -/
def settingVariables : List String :=
  ["DEFAULT_DIALECT", "PRETTY", "MAX_PATH_DEPTH", "BEST_PATH_DEPTH", "MAX_SQL_LENGTH",
    "MAX_MATCHES_PER_PASS", "MAX_SUBQUERY_DEPTH"].map ("QUERYLENS_" ++ ·)

/-- The settings in the environment, under their names in capitals or in small letters. -/
def readEnvironment : IO Environment := do
  let names := settingVariables ++ settingVariables.map String.toLower
  names.filterMapM fun name => do
    return (← IO.getEnv name).map fun value => (name, value)

/-- A file's text, if it can be read. -/
def readFile? (name : String) : IO (Option String) := do
  try
    return some (← IO.FS.readFile name)
  catch _ => return none

/-- All of a stream, after what was read of it so far. -/
partial def readToEnd (stream : IO.FS.Stream) (soFar : String) : IO String := do
  let line ← stream.getLine
  if line.isEmpty then return soFar
  readToEnd stream (soFar ++ line)

/-- A thing shown, in plain text. -/
def drawn : Display → String
  | .panel title text => title ++ "\n" ++ text.getD ""
  | .table title columns rows =>
    "\n".intercalate (title :: " | ".intercalate columns :: rows.map (" | ".intercalate ·))
  | .line text => text

/-- Runs a command on the files of the system and shows what it leaves. -/
def execute (command : Command) : IO UInt32 := do
  let env ← readEnvironment
  let texts ← command.files.filterMapM fun name => do
    return (← readFile? name).map fun text => (name, text)
  let input ← if "-" ∈ command.files then readToEnd (← IO.getStdin) "" else pure ""
  let (screen, warnings) := run env ⟨fun name => Assoc.get? name texts, input⟩ command
  for w in warnings do IO.eprintln w.message
  IO.print screen.printed
  for d in screen.shown do IO.println (drawn d)
  return screen.code.toUInt32

end QueryWorkbench.CommandLine

/-- Runs the command that the arguments ask for. -/
def main (arguments : List String) : IO UInt32 := do
  match QueryWorkbench.CommandLine.Command.ofArguments? arguments with
  | some command => QueryWorkbench.CommandLine.execute command
  | none =>
    IO.eprintln "usage: [-v] generate | paths | suggest | analyze | highlight | format ..."
    return 2
