/-
Steps.

A step is an action, a branch or a loop.  Actions are done one after the other;
a branch asks a question about the page and goes one of two ways; a loop repeats
what hangs on it.  A choice that names nothing known is kept as it was given, so
that it can be reported where the step is written out.
-/
import FlowSuite.Json.Read
import FlowSuite.Text.Blank

namespace FlowSuite

/-- The start of a test case. -/
structure Session where
  testName : Option String
  browser : String
  url : String
  /-- The target that this test case asks for. -/
  framework : Option String
  clearCookies : Bool
  clearLocalStorage : Bool
  clearSessionStorage : Bool
  deriving DecidableEq, Repr

/-- The ways to find a page element. -/
inductive Strategy where
  | id
  | css
  | xpath
  | name
  | linkText
  deriving DecidableEq, Repr, Inhabited

/-- A page element, found by a strategy and a value for it. -/
structure Element where
  name : String
  strategy : Strategy
  value : String
  /-- The strategy that was asked for, if there is none such; `strategy` is `id` then. -/
  unknownStrategy : Option String
  deriving DecidableEq, Repr

/-- What can be done with a page element. -/
inductive Gesture where
  | click
  | type
  | clear
  | hover
  | captureText
  | unknown (key : String)
  deriving DecidableEq, Repr

/-- The gesture's name in messages. -/
def Gesture.label : Gesture → String
  | .click => "Click"
  | .type => "Type"
  | .clear => "Clear"
  | .hover => "Hover"
  | .captureText => "Get Text"
  | .unknown key => key

/-- Something done with a page element. -/
structure Interaction where
  gesture : Gesture
  value : String
  /-- The variable that a captured text goes to. -/
  saveTo : Option String
  deriving DecidableEq, Repr

/-- What can be asked about a page. -/
inductive Condition where
  | visible
  | containsText
  | urlContains
  | urlMatches
  | hasClass
  | propertyEquals
  | networkStatus
  | unknown (key : String)
  deriving DecidableEq, Repr

namespace Condition

/-- The condition's name in messages. -/
def label : Condition → String
  | .visible => "Is Visible"
  | .containsText => "Contains Text"
  | .urlContains => "URL Contains"
  | .urlMatches => "URL Matches Regex"
  | .hasClass => "Has Class"
  | .propertyEquals => "Property Equals"
  | .networkStatus => "Network Status"
  | .unknown key => key

/-- Whether the question is about a page element. -/
def needsElement : Condition → Bool
  | .visible => true
  | .containsText => true
  | .hasClass => true
  | .propertyEquals => true
  | _ => false

end Condition

/-- A question about a page. -/
structure Check where
  condition : Condition
  value : String
  property : String
  networkAlias : String
  expectedStatus : String
  deriving DecidableEq, Repr

/-- The value as a regular expression, without the slashes that may stand around it. -/
def Check.pattern (c : Check) : String :=
  let cs := Text.trimChars c.value.toList
  match cs with
  | '/' :: rest => String.ofList (if rest.getLast? = some '/' then rest.dropLast else cs)
  | _ => String.ofList cs

/-- A question whose answer must be yes. -/
structure Assertion where
  check : Check
  /-- Whether a yes is logged too. -/
  verbose : Bool
  deriving DecidableEq, Repr

/-- How a loop ends. -/
inductive LoopMode where
  | counter
  | whileVisible
  /-- An unknown way to end; it counts. -/
  | unknown (raw : String)
  deriving DecidableEq, Repr

/-- A loop. -/
structure Loop where
  mode : LoopMode
  /-- How often to repeat, as a field text. -/
  count : String
  /-- What a conditional loop was asked to watch. -/
  condition : Condition
  deriving DecidableEq, Repr

/-- A pause. -/
inductive Pause where
  /-- For a number of seconds, as a field text. -/
  | time (duration : String)
  /-- For a request. -/
  | network (route : String)
  /-- An unknown kind of pause; it takes the time given. -/
  | unknown (waitType duration : String)
  deriving DecidableEq, Repr

/-- A picture of the page. -/
structure Screenshot where
  directory : String
  filename : String
  /-- Whether the pictures of a test are numbered. -/
  counter : Bool
  deriving DecidableEq, Repr

/-- The directory without slashes at its end; the current one if nothing is left. -/
def Screenshot.folder (s : Screenshot) : String :=
  let cs := ((Text.trimChars s.directory.toList).reverse.dropWhile (· == '/')).reverse
  if cs.isEmpty then "." else String.ofList cs

/-- A value for a variable. -/
structure Assignment where
  name : String
  value : String
  deriving DecidableEq, Repr

/-- An answer made up for a request. -/
structure MockResponse where
  status : String
  body : String
  deriving DecidableEq, Repr

/-- The body as compact JSON; an empty object if it is not JSON. -/
def MockResponse.json (m : MockResponse) : String :=
  match Json.parse? m.body with
  | some v => v.render
  | none => "\x7b\x7d"

/-- A rule for requests. -/
structure Interception where
  method : String
  urlPattern : String
  route : String
  mock : Option MockResponse
  deriving DecidableEq, Repr

/-- Data read from a file into a variable. -/
structure Fixture where
  path : String
  name : String
  deriving DecidableEq, Repr

/-- A call of a routine defined elsewhere. -/
structure Command where
  /-- The routine; a target has a name of its own for one that is not given. -/
  name : Option String
  arguments : List String
  deriving DecidableEq, Repr

/-- A step after which the next one follows. -/
inductive Action where
  | session (s : Session)
  | element (e : Element)
  | interact (i : Interaction)
  | assertion (a : Assertion)
  | pause (p : Pause)
  | screenshot (s : Screenshot)
  | assign (a : Assignment)
  | intercept (i : Interception)
  | fixture (f : Fixture)
  | command (c : Command)
  deriving DecidableEq, Repr

/-- A step. -/
inductive Step where
  | action (a : Action)
  | branch (c : Check)
  | loop (l : Loop)
  deriving DecidableEq, Repr

end FlowSuite
