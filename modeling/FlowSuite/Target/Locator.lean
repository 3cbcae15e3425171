/-
Values that locate a page element.

An identifier, a selector or a path to an element is either written into the field
or, when the field is one reference, read from a variable while the test runs.  In
both cases the target may have to put fixed text around it.
-/
import FlowSuite.Target.Expression

namespace FlowSuite

/-- A locator's value: read from a variable, or given. -/
inductive LocatorValue where
  | reference (p : Path)
  | literal (s : String)
  deriving DecidableEq, Repr

namespace LocatorValue

/-- A field text that is one reference is read at run time; any other is given. -/
def resolve (raw : String) : LocatorValue :=
  let cs := Text.trimChars raw.toList
  match Segment.single? (Segment.scanChars cs) with
  | some p => .reference p
  | none => .literal (String.ofList cs)

/-- A text to be added, unless it is empty. -/
def affix (s : String) : List String :=
  if s.isEmpty then [] else [Text.quote s]

/-- The value between two fixed texts: one literal, or a sum around the accessor. -/
def between (t : Target) (before after : String) : LocatorValue → String
  | .literal s => Text.quote (before ++ s ++ after)
  | .reference p => concat (affix before ++ [t.accessor p] ++ affix after)

/-- The value alone. -/
def expression (t : Target) (v : LocatorValue) : String :=
  v.between t "" ""

end LocatorValue

end FlowSuite
