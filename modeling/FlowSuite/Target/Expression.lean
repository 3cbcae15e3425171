/-
Field texts as expressions of a target's language.

Variables live in a store: a dictionary of the test object in Python, the
environment of the runner in JavaScript.  A path is a look-up in the store followed
by one subscript per key; a key of digits is an index, every other key is quoted.
Only the look-up and the strings put together at run time differ between targets.
-/
import FlowSuite.Target.Basic
import FlowSuite.Target.Interpolation
import FlowSuite.Template.Value

namespace FlowSuite

namespace Target

/-- The look-up of a variable. -/
def lookup (t : Target) (root : String) : String :=
  match t with
  | .selenium => "self.vars.get(" ++ Text.quote root ++ ")"
  | .cypress => "Cypress.env(" ++ Text.quote root ++ ")"

/-- A key that is written as an index. -/
def isIndex (key : String) : Bool :=
  !key.isEmpty && key.toList.all Char.isDigit

/-- A subscript. -/
def subscript (key : String) : String :=
  "[" ++ (if isIndex key then key else Text.quote key) ++ "]"

/-- The value at a path. -/
def accessor (t : Target) (p : Path) : String :=
  t.lookup p.root ++ String.join (p.keys.map subscript)

/-- The string that the pieces make up. -/
def interpolate : Target → List Piece → String
  | .selenium => Python.interpolate
  | .cypress => JavaScript.interpolate

/-- A segment of source text. -/
def sourceText (t : Target) : Segment → String
  | .text s => s
  | .ref p => t.accessor p

/-- A segment of a string. -/
def piece (t : Target) : Segment → Piece
  | .text s => .text s
  | .ref p => .expr (t.accessor p)

/-- The expression for a value.  An assignment without source is the empty string. -/
def expression (t : Target) : Value → String
  | .assignment segments =>
      let source := String.join (segments.map t.sourceText)
      if Text.isBlankText source then Text.quote "" else source
  | .reference p => t.accessor p
  | .interpolated segments => t.interpolate (segments.map t.piece)
  | .number s => s
  | .text s => Text.quote s

/-- The expression for a field text. -/
def translate (t : Target) (raw : String) : String :=
  t.expression (Value.classify raw)

end Target

end FlowSuite
