/-
Making values of documents.

Reading a value asks for every part of a document: each string must have a text,
each number must fit, and containers nest only so deep.  Records (documents that
carry named fields) ask for their own fields only, and nothing is required of the
rest.
-/
import FlowSuite.Json.Basic
import FlowSuite.Json.Document

namespace FlowSuite

/-- How many containers may stand inside each other, the outermost included. -/
def nestingLimit : Nat := 127

/-- The value of a document in which at most `levels` containers nest.  Of a repeated
key the last value counts. -/
def Json.ofDocument? : Nat → Document → Option Json
  | _, .null => some .null
  | _, .bool b => some (.bool b)
  | _, .number n => (Number.ofNumeral? n).map .number
  | _, .string s => s.map .string
  | 0, .array _ => none
  | 0, .object _ => none
  | levels + 1, .array items => (items.mapM (ofDocument? levels)).map .array
  | levels + 1, .object members => do
      let fields ← members.mapM fun (key, value) => do
        return (← key, ← ofDocument? levels value)
      return .object (Object.ofFields fields)

/-- The value that a JSON text holds. -/
def Json.parse? (s : String) : Option Json := do
  ofDocument? nestingLimit (← Document.parse? s)

namespace Document

/-- The fields of a record, each with the names it may go by.  A record is written as
an object, where every key must be readable, no field may be given twice and
unknown keys are passed over, or as an array of its fields in order, where fields
may be missing at the end.  A field that is not given is `none`. -/
def record? (names : List (List String)) : Document → Option (List (Option Document))
  | .object members => do
      let members ← members.mapM fun (key, value) => key.map (·, value)
      names.mapM fun aliases =>
        match members.filter (aliases.contains ·.1) with
        | [] => some none
        | [(_, value)] => some (some value)
        | _ => none
  | .array items =>
      if items.length ≤ names.length then
        some (items.map some ++ List.replicate (names.length - items.length) none)
      else none
  | _ => none

/-- A text. -/
def text? : Document → Option String
  | .string s => s
  | _ => none

/-- A name out of a fixed set: a string, or an object with the name as its only key and
null under it. -/
def name? : Document → Option String
  | .string s => s
  | .object [(key, .null)] => key
  | _ => none

/-- A number, as a double. -/
def double? : Document → Option Float
  | .number n => (Number.ofNumeral? n).map fun _ => n.toFloat
  | _ => none

/-- The items of an array. -/
def items? : Document → Option (List Document)
  | .array items => some items
  | _ => none

/-- The fields of an object in which at most `levels` containers nest. -/
def fields? (levels : Nat) (d : Document) : Option Object :=
  match Json.ofDocument? levels d with
  | some (.object fields) => some fields
  | _ => none

/-- A required field. -/
def required {α : Type} (read : Document → Option α) : Option Document → Option α
  | none => none
  | some d => read d

/-- A field with a default. -/
def withDefault {α : Type} (default : α) (read : Document → Option α) :
    Option Document → Option α
  | none => some default
  | some d => read d

/-- An optional field: absent and null are the same. -/
def optional {α : Type} (read : Document → Option α) : Option Document → Option (Option α)
  | none => some none
  | some .null => some none
  | some d => (read d).map some

end Document

end FlowSuite
