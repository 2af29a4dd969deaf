/-
QueryWorkbench.Document.Validated — results of reading a document that keep every fault.

A reader gives either a value or the list of all faults found, in reading order. The applicative
structure reads the parts one after the other and joins their faults; there is no monad, because a
part that depends on an earlier one could not be read when the earlier one is at fault.
-/

namespace QueryWorkbench.Document

/-- One step of the way from the root of a document to a value in it. -/
inductive Step where
  | key (name : String)
  | index (position : Nat)
deriving DecidableEq

/-- What is wrong with a value. -/
inductive Fault where
  | missing
  | notText
  | notInteger
  | notNumeral
  | hasFraction
  | notFinite
  | oversized
  | tooSmall
  | tooLarge
  | notTruth
  | notTruthWord
  | notChoice
  | notList
  | notObject
deriving DecidableEq

/-- The short name of a fault. -/
def Fault.name : Fault → String
  | missing => "missing"
  | notText => "string_type"
  | notInteger => "int_type"
  | notNumeral => "int_parsing"
  | hasFraction => "int_from_float"
  | notFinite => "finite_number"
  | oversized => "int_parsing_size"
  | tooSmall => "greater_than_equal"
  | tooLarge => "less_than_equal"
  | notTruth => "bool_type"
  | notTruthWord => "bool_parsing"
  | notChoice => "enum"
  | notList => "list_type"
  | notObject => "model_type"

/-- A fault and where it is. -/
structure Issue where
  location : List Step
  fault : Fault
deriving DecidableEq

/-- A value read, or all the faults that kept it from being read. -/
inductive Validated (α : Type) where
  | valid (value : α)
  | invalid (issues : List Issue)

namespace Validated

variable {α β : Type}

/-- A single fault at the root. -/
def fault (f : Fault) : Validated α := invalid [⟨[], f⟩]

/-- A value, or its single fault. -/
def ofExcept : Except Fault α → Validated α
  | .ok a => valid a
  | .error f => fault f

/-- Applies a function to a value that was read. -/
def map (f : α → β) : Validated α → Validated β
  | valid a => valid (f a)
  | invalid issues => invalid issues

/-- Applies a function that was read to a value that was read, joining the faults of both. -/
def apply : Validated (α → β) → Validated α → Validated β
  | valid f, valid a => valid (f a)
  | valid _, invalid issues => invalid issues
  | invalid issues, valid _ => invalid issues
  | invalid first, invalid second => invalid (first ++ second)

instance : Applicative Validated where
  pure := valid
  map := map
  seq f a := apply f (a ())

@[simp] theorem map_valid (f : α → β) (a : α) : f <$> valid a = valid (f a) := rfl

@[simp] theorem seq_valid (f : α → β) (a : α) : valid f <*> valid a = valid (f a) := rfl

/-- Moves every fault one step further from the root. -/
def under (step : Step) : Validated α → Validated α
  | valid a => valid a
  | invalid issues => invalid (issues.map fun i => ⟨step :: i.location, i.fault⟩)

@[simp] theorem under_valid (step : Step) (a : α) : (valid a).under step = valid a := rfl

/-- The value, or the faults as an error. -/
def toExcept : Validated α → Except (List Issue) α
  | valid a => .ok a
  | invalid issues => .error issues

end Validated

end QueryWorkbench.Document
