/-
QueryWorkbench.Outcome — results together with the warnings given on the way.

An outcome is a value or a failure, and the warnings in order. Steps are put one after the other
by the monad: a failure ends the chain and keeps the warnings given before it.
-/
import QueryWorkbench.Failure

namespace QueryWorkbench

/-- What is worth a warning. -/
inductive Warning where
  /-- A text was not analysed because of its length. -/
  | tooLong (length : Nat) (limit : Int)
  /-- More matches were there than a pass may use. -/
  | matchLimit
  /-- A nested query was not followed. -/
  | tooDeep (limit : Int)
  /-- A foreign key names a table that is not there. -/
  | unknownTables (key source target : String)
  /-- A column was added whose table cannot be joined. -/
  | noJoinPath (base table : String)
  /-- A join was asked for between tables that are not related. -/
  | noRelationship (source target : String)
deriving DecidableEq

/-- The text of a warning. -/
def Warning.message : Warning → String
  | tooLong length limit =>
    "SQL text of " ++ toString length ++ " chars exceeds the " ++ toString limit
      ++ " char analysis limit; skipping"
  | matchLimit => "SQL analysis hit the match limit; result is partial"
  | tooDeep limit => "Subquery nesting deeper than " ++ toString limit ++ " not followed"
  | unknownTables key source target =>
    "Foreign key " ++ key ++ " references unknown tables: " ++ source ++ " -> " ++ target
  | noJoinPath base table => "No join path from " ++ base ++ " to " ++ table
  | noRelationship source target =>
    "No relationship found between " ++ source ++ " and " ++ target

/-- A value or a failure, and warnings. -/
structure Outcome (α : Type) where
  result : Except Failure α
  warnings : List Warning := []

namespace Outcome

variable {α β : Type}

/-- A value without a warning. -/
def ok (a : α) : Outcome α := ⟨.ok a, []⟩

/-- A failure without a warning. -/
def fail (f : Failure) : Outcome α := ⟨.error f, []⟩

/-- A step after another one. -/
def andThen (o : Outcome α) (next : α → Outcome β) : Outcome β :=
  match o.result with
  | .ok a =>
    let done := next a
    ⟨done.result, o.warnings ++ done.warnings⟩
  | .error f => ⟨.error f, o.warnings⟩

instance : Monad Outcome where
  pure := ok
  bind := andThen

/-- The result of a step after another one is that of the two results. -/
theorem result_bind (o : Outcome α) (next : α → Outcome β) :
    (o >>= next).result = o.result >>= fun a => (next a).result := by
  obtain ⟨result, warnings⟩ := o
  cases result <;> rfl

instance : MonadExceptOf Failure Outcome where
  throw := fail
  tryCatch o handle :=
    match o.result with
    | .ok _ => o
    | .error f =>
      let done := handle f
      ⟨done.result, o.warnings ++ done.warnings⟩

instance : MonadLift (Except Failure) Outcome where
  monadLift r := ⟨r, []⟩

/-- Warnings and nothing else. -/
def warn (warnings : List Warning) : Outcome Unit := ⟨.ok (), warnings⟩

end Outcome

end QueryWorkbench
