/-
Questions that can be asked.

A check names a condition and brings values for all of them; together with the page
element of its step it becomes a question, which has just what it needs.  A check
with an unknown condition, or without the element it asks about, is no question, and
its fault says why.
-/
import FlowSuite.Step.Basic

namespace FlowSuite

/-- A check with all it needs. -/
inductive Question where
  | visible (e : Element)
  | containsText (e : Element) (value : String)
  | hasClass (e : Element) (value : String)
  | propertyEquals (e : Element) (property value : String)
  | urlContains (value : String)
  | urlMatches (pattern : String)
  | networkStatus (route status : String)
  deriving DecidableEq, Repr

/-- Why a check cannot be made. -/
inductive CheckFault where
  | unknownCondition (key : String)
  | noElement (c : Condition)
  deriving DecidableEq, Repr

/-- The fault as it stands in place of the check. -/
def CheckFault.reason : CheckFault → String
  | .unknownCondition key => s!"Unknown condition '{key}', check skipped"
  | .noElement c => s!"Warning: '{c.label}' check has no element connected"

/-- The question that a check asks about a page element, if there is one. -/
def Check.question (c : Check) (element : Option Element) : Except CheckFault Question :=
  match c.condition, element with
  | .visible, some e => .ok (.visible e)
  | .containsText, some e => .ok (.containsText e c.value)
  | .hasClass, some e => .ok (.hasClass e c.value)
  | .propertyEquals, some e => .ok (.propertyEquals e c.property c.value)
  | .urlContains, _ => .ok (.urlContains c.value)
  | .urlMatches, _ => .ok (.urlMatches c.pattern)
  | .networkStatus, _ => .ok (.networkStatus c.networkAlias c.expectedStatus)
  | .unknown key, _ => .error (.unknownCondition key)
  | condition, none => .error (.noElement condition)

/-- What a yes means, in words. -/
def Question.message : Question → String
  | .visible e => s!"Element '{e.name}' is visible"
  | .containsText e _ => s!"Element '{e.name}' contains text"
  | .hasClass e value => s!"Element '{e.name}' has class '{value}'"
  | .propertyEquals e property _ =>
      s!"Element '{e.name}' property '{property}' equals expected"
  | .urlContains _ => "URL contains text"
  | .urlMatches _ => "URL matches regex"
  | .networkStatus route status => s!"Request '@{route}' answered with status {status}"

/-- The page element that a question is about. -/
def Question.element? : Question → Option Element
  | .visible e => some e
  | .containsText e _ => some e
  | .hasClass e _ => some e
  | .propertyEquals e _ _ => some e
  | _ => none

end FlowSuite
