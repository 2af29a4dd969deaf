/-
QueryWorkbench.Document.Reader — readers of JSON documents.

Readers of scalars, lists and objects. A field has two spellings, a short one used in documents
and the long one of the same field; both are read, and the short one wins. Faults are always
located by the short spelling. Unknown members are passed over.
-/
import QueryWorkbench.Decimal.Shortest
import QueryWorkbench.Document.Validated
import QueryWorkbench.Json.Basic
import QueryWorkbench.Text.Integer

namespace QueryWorkbench.Document

open QueryWorkbench.Text

/-- What reads a value of a type from JSON. -/
abbrev Reader (α : Type) := Json → Validated α

/-- The members of an object. -/
abbrev Members := List (String × Json)

/-- The two spellings of a field. -/
structure FieldName where
  camel : String
  snake : String

/-- Which spelling a document is written in. -/
inductive KeyStyle where
  | camel
  | snake
deriving DecidableEq

/-- The spelling of a field in a style. -/
def FieldName.spelled (f : FieldName) : KeyStyle → String
  | .camel => f.camel
  | .snake => f.snake

/-- The value of a field. -/
def FieldName.find? (f : FieldName) (members : Members) : Option Json :=
  (Assoc.get? f.camel members).or (Assoc.get? f.snake members)

/-- A field that must be there. -/
def required {α : Type} (f : FieldName) (read : Reader α) (members : Members) : Validated α :=
  match f.find? members with
  | some v => (read v).under (.key f.camel)
  | none => .invalid [⟨[.key f.camel], .missing⟩]

/-- A field with a value for when it is not there. -/
def optional {α : Type} (f : FieldName) (read : Reader α) (absent : α) (members : Members) :
    Validated α :=
  match f.find? members with
  | some v => (read v).under (.key f.camel)
  | none => .valid absent

/-- Any value. -/
def readAny : Reader Json := .valid

/-- A string. -/
def readText : Reader String
  | .str s => .valid s
  | _ => .fault .notText

/-- Null, or what the reader takes. -/
def nullable {α : Type} (read : Reader α) : Reader (Option α)
  | .null => .valid none
  | v => some <$> read v

/-- The integer that a double is, given by its bits. It has to be finite, without a fraction, and
within the range of a signed word. -/
def integerOfBits (bits : UInt64) : Except Fault Int :=
  if Decimal.isFinite bits then
    match (Decimal.Binary.ofBits bits).whole? with
    | some n =>
      if n < Nat.pow 2 63 then .ok (signed (bits >>> 63 = 1) n) else .error .oversized
    | none => .error .hasFraction
  else .error .notFinite

/-- The least number that is not read from text: a numeral has at most 4300 digits, leading zeros
apart. -/
def numeralLimit : Nat := Nat.pow 10 4300

/-- The integer that a numeral stands for. -/
def integerOfText (s : String) : Except Fault Int :=
  match integer? s.toList with
  | some n => if n.natAbs < numeralLimit then .ok n else .error .oversized
  | none => .error .notNumeral

/-- An integer: a whole number, a truth value as zero or one, or a numeral. -/
def readInteger : Reader Int
  | .int n => .valid n
  | .bool b => .valid (if b then 1 else 0)
  | .num x => .ofExcept (integerOfBits x.toBits)
  | .str s => .ofExcept (integerOfText s)
  | _ => .fault .notInteger

/-- An integer that is at least `least` and at most `most`. -/
def readBounded (least : Nat) (most : Option Nat) : Reader Nat := fun v =>
  match readInteger v with
  | .valid n =>
    if n < least then .fault .tooSmall
    else if most.any (fun m => (m : Int) < n) then .fault .tooLarge
    else .valid n.toNat
  | .invalid issues => .invalid issues

/-- A truth value: true or false, zero or one, or one of the words for them in any case. -/
def readTruth : Reader Bool
  | .bool b => .valid b
  | .int n => if n = 0 then .valid false else if n = 1 then .valid true else .fault .notTruthWord
  | .num x =>
    match integerOfBits x.toBits with
    | .ok 0 => .valid false
    | .ok 1 => .valid true
    | .ok _ => .fault .notTruthWord
    | .error _ => .fault .notTruth
  | .str s =>
    let word := String.ofList (s.toList.map Char.toLower)
    if word ∈ ["0", "off", "f", "false", "n", "no"] then .valid false
    else if word ∈ ["1", "on", "t", "true", "y", "yes"] then .valid true
    else .fault .notTruthWord
  | _ => .fault .notTruth

/-- One of the listed values, by its name. -/
def readChoice {α : Type} (name : α → String) (choices : List α) : Reader α
  | .str s =>
    match choices.find? (fun a => name a == s) with
    | some a => .valid a
    | none => .fault .notChoice
  | _ => .fault .notChoice

/-- The items of a list, counted from `position`. -/
def readItems {α : Type} (read : Reader α) (position : Nat) : List Json → Validated (List α)
  | [] => .valid []
  | v :: rest =>
    List.cons <$> (read v).under (.index position) <*> readItems read (position + 1) rest

/-- A list. -/
def readList {α : Type} (read : Reader α) : Reader (List α)
  | .arr items => readItems read 0 items
  | _ => .fault .notList

/-- An object, read from its members. -/
def readObject {α : Type} (read : Members → Validated α) : Reader α
  | .obj members => read members
  | _ => .fault .notObject

end QueryWorkbench.Document
