/-
Reading the fields of a step.

A field that holds a blank text, or anything but a text, a number or a truth value,
counts as absent.  A number or a truth value does for a text.
-/
import FlowSuite.Json.Basic
import FlowSuite.Text.Blank
import FlowSuite.Text.Words

namespace FlowSuite.Object

/-- The text of a value, if it counts as one. -/
def valueText? : Json → Option String
  | .string s => if Text.isBlankText s then none else some s
  | .number n => some n.text
  | .bool b => some (if b then "true" else "false")
  | _ => none

/-- The text of a field. -/
def text? (o : Object) (key : String) : Option String :=
  o.get? key >>= valueText?

/-- The text of a field, or a default. -/
def textD (o : Object) (key default : String) : String :=
  (o.text? key).getD default

/-- Whether a value says yes: true itself, the word in any case, or a number other than
zero. -/
def isYes : Json → Bool
  | .bool b => b
  | .string s => Text.lower (Text.trim s) == "true"
  | .number n => n.isNonzero
  | _ => false

/-- Whether a field says yes. -/
def flag (o : Object) (key : String) : Bool :=
  (o.get? key).any isYes

/-- The key of the choice that a field makes. -/
def choice? (o : Object) (key : String) : Option String :=
  (o.text? key).map Text.choiceKey

end FlowSuite.Object
