/-
What a field text means.

The blanks around a text do not count.  A text that starts with an equals sign is an
expression of the target language, in which references are filled in.  A text that
is one reference stands for the stored value itself.  A text with references among
other characters is a string put together at run time.  What remains is a number or
a plain string.  The rules are tried in this order.
-/
import FlowSuite.Number.Numeral
import FlowSuite.Template.Segment

namespace FlowSuite

/-- The meaning of a field text. -/
inductive Value where
  | assignment (segments : List Segment)
  | reference (p : Path)
  | interpolated (segments : List Segment)
  | number (s : String)
  | text (s : String)
  deriving DecidableEq, Repr

namespace Value

/-- The meaning of a text that is not an assignment; `cs` is trimmed. -/
def ofChars (cs : List Char) : Value :=
  let segments := Segment.scanChars cs
  match Segment.single? segments with
  | some p => .reference p
  | none =>
      if segments.any Segment.isRef then .interpolated segments
      else
        let s := String.ofList cs
        if isDecimal s then .number s else .text s

/-- The meaning of a field text. -/
def classify (raw : String) : Value :=
  match Text.trimChars raw.toList with
  | '=' :: source => .assignment (Segment.scanChars (Text.trimChars source))
  | cs => ofChars cs

/-- The value is written as a string of the target language. -/
def isString : Value → Bool
  | .text _ => true
  | .interpolated _ => true
  | _ => false

/-- The value does not depend on any variable. -/
def isLiteral : Value → Bool
  | .text _ => true
  | .number _ => true
  | _ => false

end Value

end FlowSuite
