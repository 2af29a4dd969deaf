/-
QueryWorkbench.CommandLine.Arguments — the words of a command line sorted into options and
arguments.

Options start with two dashes and can be shortened as long as they stay unique; the value of an
option is the next word or follows an equals sign. A word that starts with a dash is an argument
all the same when it is a dash alone, a negative number, has a space in it, or stands behind the
word of two dashes.
-/
import QueryWorkbench.Text.Digit

namespace QueryWorkbench.CommandLine

/-- What a subcommand takes: options without and with a value, a number of arguments, and
perhaps one or more arguments after them. -/
structure Usage where
  flags : List String := []
  valued : List String := []
  arguments : Nat
  more : Bool := false

/-- A word of the command line by its part. -/
inductive Token where
  | argument (word : String)
  | flag (name : String)
  | valued (name : String) (value : Option String)
  | divider
deriving DecidableEq

/-- A negative number: a dash and digits, with or without a point before the last ones. -/
def isNegativeNumber (word : List Char) : Bool :=
  match word with
  | '-' :: rest =>
    let whole := rest.takeWhile Text.isDigit
    match rest.drop whole.length with
    | [] => !whole.isEmpty
    | '.' :: decimals => !decimals.isEmpty && decimals.all Text.isDigit
    | _ => false
  | _ => false

/-- The name before an equals sign and the value after it, if there is one. -/
def splitValue (word : List Char) : List Char × Option String :=
  let name := word.takeWhile (· ≠ '=')
  match word.drop name.length with
  | [] => (name, none)
  | _ :: value => (name, some (String.ofList value))

/-- The options that a name can be short for. A name that is given in full means that option. -/
def meant (usage : Usage) (name : List Char) : List String :=
  let all := usage.flags ++ usage.valued
  match all.find? (·.toList == name) with
  | some o => [o]
  | none => if name.length ≤ 2 then [] else all.filter fun o => name.isPrefixOf o.toList

/-- The part of a word in front of the divider; `none` for an option that there is not. -/
def token? (usage : Usage) (word : String) : Option Token :=
  let chars := word.toList
  match chars with
  | '-' :: second :: _ =>
    let (name, value) := splitValue chars
    match meant usage name with
    | [o] =>
      if o ∈ usage.valued then some (.valued o value)
      else if value.isSome then none
      else some (.flag o)
    | _ :: _ :: _ => none
    | [] =>
      if second ≠ '-' && isNegativeNumber chars then some (.argument word)
      else if chars.contains ' ' && !(name.length ≤ 2 && second = '-') then some (.argument word)
      else none
  | _ => some (.argument word)

/-- The parts of all words. -/
def tokens? (usage : Usage) : List String → Option (List Token)
  | [] => some []
  | word :: rest =>
    if word = "--" then some (.divider :: rest.map .argument)
    else
      match token? usage word, tokens? usage rest with
      | some t, some ts => some (t :: ts)
      | _, _ => none

/-- A sorted command line. -/
structure Sorted where
  arguments : List String := []
  flags : List String := []
  values : List (String × String) := []
deriving DecidableEq

/-- Sorts tokens. An option with a value takes the argument behind it unless the value is there
already; the divider needs an argument next to it. `afterArgument` tells whether the token before
is an argument. -/
def sort? (afterArgument : Bool) : List Token → Option Sorted
  | [] => some {}
  | .argument word :: rest =>
    (sort? true rest).map fun s => { s with arguments := word :: s.arguments }
  | .flag name :: rest => (sort? false rest).map fun s => { s with flags := name :: s.flags }
  | .valued name (some value) :: rest =>
    (sort? false rest).map fun s => { s with values := (name, value) :: s.values }
  | .valued name none :: .argument value :: rest =>
    (sort? false rest).map fun s => { s with values := (name, value) :: s.values }
  | .valued _ none :: _ => none
  | .divider :: rest => if afterArgument || !rest.isEmpty then sort? false rest else none

/-- A command line sorted by the usage of its subcommand, with the right number of arguments. -/
def Usage.sort? (usage : Usage) (words : List String) : Option Sorted := do
  let tokens ← tokens? usage words
  let sorted ← CommandLine.sort? false tokens
  let count := sorted.arguments.length
  guard (if usage.more then count > usage.arguments else count = usage.arguments)
  some sorted

/-- The values given for an option, in order. -/
def Sorted.given (s : Sorted) (name : String) : List String :=
  (s.values.filter (·.1 == name)).map (·.2)

/-- Whether a flag is given. -/
def Sorted.has (s : Sorted) (name : String) : Bool := s.flags.contains name

end QueryWorkbench.CommandLine
