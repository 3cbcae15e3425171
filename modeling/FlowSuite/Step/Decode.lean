/-
Making steps of nodes.

Each kind of step has its own fields with their own defaults, and reading them never
fails.  Choices are matched by their key, so spelling, case and punctuation do not
matter.
-/
import FlowSuite.Flow.Basic
import FlowSuite.Step.Basic
import FlowSuite.Step.Field

namespace FlowSuite

/-! ### Choices -/

/-- The strategy of a choice. -/
def Strategy.ofKey? : String → Option Strategy
  | "id" => some .id
  | "css" => some .css
  | "cssselector" => some .css
  | "xpath" => some .xpath
  | "name" => some .name
  | "linktext" => some .linkText
  | "link" => some .linkText
  | _ => none

/-- The gesture of a choice; a click if none is made. -/
def Gesture.ofKey : Option String → Gesture
  | none => .click
  | some "click" => .click
  | some "type" => .type
  | some "sendkeys" => .type
  | some "typesendkeys" => .type
  | some "clear" => .clear
  | some "hover" => .hover
  | some "gettext" => .captureText
  | some "capturetext" => .captureText
  | some "gettextsavetovar" => .captureText
  | some key => .unknown key

/-- The condition of a choice; visibility if none is made. -/
def Condition.ofKey : Option String → Condition
  | none => .visible
  | some "visible" => .visible
  | some "isvisible" => .visible
  | some "iselementvisible" => .visible
  | some "containstext" => .containsText
  | some "elementcontainstext" => .containsText
  | some "urlcontains" => .urlContains
  | some "urlmatchespattern" => .urlMatches
  | some "urlmatchesregex" => .urlMatches
  | some "hasclass" => .hasClass
  | some "elementhasclass" => .hasClass
  | some "propertyequals" => .propertyEquals
  | some "elementpropertyequals" => .propertyEquals
  | some "networkstatus" => .networkStatus
  | some "networkresponsestatus" => .networkStatus
  | some key => .unknown key

/-- The mode that a text chooses; counting if there is none. -/
def LoopMode.ofText : Option String → LoopMode
  | none => .counter
  | some raw =>
      match Text.choiceKey raw with
      | "counter" => .counter
      | "count" => .counter
      | "times" => .counter
      | "while" => .whileVisible
      | "whilecondition" => .whileVisible
      | _ => .unknown (Text.trim raw)

/-! ### Steps -/

/-- The start of a test case. -/
def Session.ofData (o : Object) : Session where
  testName := (o.text? "testName").map Text.trim
  browser := o.textD "browser" "Chrome"
  url := o.textD "url" "https://example.com"
  framework := o.text? "framework"
  clearCookies := o.flag "clearCookies"
  clearLocalStorage := o.flag "clearLocalStorage"
  clearSessionStorage := o.flag "clearSessionStorage"

/-- A page element. -/
def Element.ofData (o : Object) : Element :=
  let asked := o.text? "selectorType"
  let found := asked.map fun raw => Strategy.ofKey? (Text.choiceKey raw)
  { name := o.textD "name" "element"
    strategy := (found.getD none).getD .id
    value := o.textD "selectorValue" ""
    unknownStrategy := if found = some none then asked.map Text.trim else none }

/-- Something done with a page element. -/
def Interaction.ofData (o : Object) : Interaction where
  gesture := Gesture.ofKey (o.choice? "action")
  value := o.textD "value" ""
  saveTo := o.text? "saveTo"

/-- A question about a page. -/
def Check.ofData (o : Object) : Check where
  condition := Condition.ofKey (o.choice? "condition")
  value := o.textD "value" ""
  property := o.textD "propertyName" "value"
  networkAlias := o.textD "networkAlias" "request"
  expectedStatus := o.textD "expectedStatus" "200"

/-- A question whose answer must be yes. -/
def Assertion.ofData (o : Object) : Assertion where
  check := Check.ofData o
  verbose := o.flag "printResults"

/-- A loop. -/
def Loop.ofData (o : Object) : Loop where
  mode := LoopMode.ofText (o.text? "loopType")
  count := o.textD "count" "1"
  condition := Condition.ofKey (o.choice? "condition")

/-- A pause. -/
def Pause.ofData (o : Object) : Pause :=
  let duration := o.textD "duration" "1"
  match o.text? "waitType" with
  | none => .time duration
  | some raw =>
      match Text.choiceKey raw with
      | "time" => .time duration
      | "timeseconds" => .time duration
      | "duration" => .time duration
      | "network" => .network (o.textD "networkAlias" "request")
      | "networkalias" => .network (o.textD "networkAlias" "request")
      | "networkaliascypress" => .network (o.textD "networkAlias" "request")
      | _ => .unknown (Text.trim raw) duration

/-- A picture of the page. -/
def Screenshot.ofData (o : Object) : Screenshot where
  directory := o.textD "directory" "./screenshots"
  filename := o.textD "filename" "screenshot"
  counter := o.flag "autoIncrement"

/-- A value for a variable. -/
def Assignment.ofData (o : Object) : Assignment where
  name := o.textD "varName" "my_var"
  value := o.textD "varValue" ""

/-- An answer made up for a request. -/
def MockResponse.ofData (o : Object) : MockResponse where
  status := o.textD "statusCode" "200"
  body := o.textD "responseBody" "\x7b\x7d"

/-- A rule for requests. -/
def Interception.ofData (o : Object) : Interception where
  method := Text.upper (o.textD "method" "GET")
  urlPattern := o.textD "urlPattern" "**/api/*"
  route := o.textD "alias" "request"
  mock := if o.flag "mockResponse" then some (MockResponse.ofData o) else none

/-- Data read from a file into a variable. -/
def Fixture.ofData (o : Object) : Fixture where
  path := o.textD "filePath" "data.json"
  name := o.textD "varName" "fixtureData"

/-- A call of a routine. -/
def Command.ofData (o : Object) : Command where
  name := (o.text? "commandName").map Text.trim
  arguments := match o.text? "arguments" with
    | none => []
    | some raw => Text.items ',' raw.toList

/-- The step that fields describe, for a kind. -/
def Step.ofData (kind : Kind) (o : Object) : Step :=
  match kind with
  | .entry => .action (.session (Session.ofData o))
  | .element => .action (.element (Element.ofData o))
  | .interact => .action (.interact (Interaction.ofData o))
  | .assertion => .action (.assertion (Assertion.ofData o))
  | .branch => .branch (Check.ofData o)
  | .loop => .loop (Loop.ofData o)
  | .wait => .action (.pause (Pause.ofData o))
  | .capture => .action (.screenshot (Screenshot.ofData o))
  | .setVariable => .action (.assign (Assignment.ofData o))
  | .networkRule => .action (.intercept (Interception.ofData o))
  | .loadFixture => .action (.fixture (Fixture.ofData o))
  | .customCall => .action (.command (Command.ofData o))

/-- The step of a node. -/
def Node.step (n : Node) : Step :=
  Step.ofData n.kind n.data

end FlowSuite
