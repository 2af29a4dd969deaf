/-
QueryWorkbench.CommandLine.Screen — what a command puts on the screen.

Output for other programs is printed as it is. Output for people is made of panels, tables and
lines with markup in square brackets; how they are drawn is not decided here.
-/
import QueryWorkbench.Failure

namespace QueryWorkbench.CommandLine

/-- Something shown to people. -/
inductive Display where
  /-- A framed text; a frame may be shown for its title alone. -/
  | panel (title : String) (text : Option String)
  | table (title : String) (columns : List String) (rows : List (List String))
  | line (text : String)
deriving DecidableEq

/-- Everything a command leaves behind. -/
structure Screen where
  code : Nat := 0
  printed : String := ""
  shown : List Display := []
deriving DecidableEq

/-- Text in the style of a markup tag. -/
def styled (style text : String) : String := "[" ++ style ++ "]" ++ text ++ "[/" ++ style ++ "]"

namespace Screen

/-- A printed line. -/
def print (text : String) : Screen := { printed := text ++ "\n" }

/-- Things shown. -/
def showing (shown : List Display) : Screen := { shown := shown }

/-- SQL in a frame. -/
def sql (title text : String) : Screen := showing [.panel (styled "bold yellow" title) (some text)]

/-- An error in a frame, and the exit code for it. -/
def error (title : String) (text : Option String) : Screen :=
  { code := 1, shown := [.panel (styled "bold red" title) (text.map (styled "red"))] }

/-- The screen of a failure. -/
def ofFailure (f : Failure) : Screen :=
  match f with
  | .document _ | .unreadable _ | .malformed _ => error "Input Error" none
  | .unsupportedDialect _ | .notQuery _ => error "Compilation Error" (some f.message)
  | .negativeDepth _ => error "Join Resolution Error" (some f.message)
  | .notText _ => error "Analysis Error" (some f.message)
  | .unknownName _ _ | .emptyManualJoin => error "Input Error" none

end Screen

end QueryWorkbench.CommandLine
