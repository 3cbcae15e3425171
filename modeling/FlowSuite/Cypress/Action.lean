/-
Cypress: the code of actions.

Commands are queued and run later, so what needs a value from the page stands in a
function that gets it.  An assertion logs its outcome before it ends the test.
-/
import FlowSuite.Cypress.Expression
import FlowSuite.Script.Basic
import FlowSuite.Step.Question

namespace FlowSuite.Cypress

/-- The start of a test case. -/
def session (site : Site) (s : Session) : List Line :=
  if site.isRoot then
    [log s!"Browser: {s.browser}, URL: {s.url}"] ++
    (if s.clearCookies then [line "cy.clearCookies();"] else []) ++
    (if s.clearLocalStorage then [line "cy.clearLocalStorage();"] else []) ++
    [line s!"cy.visit({translate s.url});"] ++
    (if s.clearSessionStorage then
      [line "cy.window().then((win) => \x7b",
        below 1 "win.sessionStorage.clear();",
        line "\x7d);"] else [])
  else [note "Entry point reached mid-flow: session setup skipped"]

/-- What is done with an element. -/
def gesture (i : Interaction) (e : Element) : List Line :=
  match i.gesture with
  | .click => [line s!"{query e}.click();"]
  | .type => [line s!"{query e}.type({asText i.value});"]
  | .clear => [line s!"{query e}.clear();"]
  | .hover => [line s!"{query e}.trigger(\"mouseover\");"]
  | .captureText =>
      match i.saveTo with
      | some name =>
          [line s!"{query e}.invoke(\"text\").then((text) => \x7b",
            below 1 s!"Cypress.env({Text.quote name}, text);",
            line "\x7d);"]
      | none => [note "Warning: Get Text has no variable to save into, skipped"]
  | .unknown key => [log s!"Unknown action '{key}'"]

/-- Something done with an element. -/
def interact (i : Interaction) : Option Element → List Line
  | none =>
      [note "Warning: Interact step has no element connected",
        log "Warning: Interact step has no element connected"]
  | some e => log s!"Action: {i.gesture.label} on '{e.name}'" :: gesture i e

/-- The command that gets what an assertion is about. -/
def subject : Question → String
  | .visible e => query e
  | .containsText e _ => query e
  | .hasClass e _ => query e
  | .propertyEquals e _ _ => query e
  | .urlContains _ => "cy.url()"
  | .urlMatches _ => "cy.url()"
  | .networkStatus route _ => await route

/-- The name that an assertion gives to what it is about. -/
def parameter : Question → String
  | .urlContains _ => "url"
  | .urlMatches _ => "url"
  | .networkStatus _ _ => "interception"
  | _ => "$el"

/-- What an assertion expects. -/
def expectation : Question → String
  | .visible _ => "expect($el).to.be.visible"
  | .containsText _ value => s!"expect($el.text()).to.include({asText value})"
  | .hasClass _ value => s!"expect($el).to.have.class({asText value})"
  | .propertyEquals _ property value =>
      s!"expect(String($el.prop({Text.quote property}))).to.equal({asText value})"
  | .urlContains value => s!"expect(url).to.include({asText value})"
  | .urlMatches pattern => s!"expect(url).to.match(new RegExp({Text.quote pattern}))"
  | .networkStatus _ status =>
      s!"expect(interception.response.statusCode).to.equal(Number({translate status}))"

/-- A question whose answer must be yes. -/
def assertion (a : Assertion) (element : Option Element) : List Line :=
  match a.check.question element with
  | .error fault => [note fault.reason]
  | .ok q =>
      let message := Text.quote q.message
      let verbose := if a.verbose then "true" else "false"
      [log s!"Asserting: {a.check.condition.label}",
        line s!"{subject q}.then(({parameter q}) => \x7b",
        below 1 s!"checked({message}, {verbose}, () => {expectation q});",
        line "\x7d);"]

/-- A pause for a number of seconds. -/
def sleep (duration : String) : List Line :=
  match Value.classify duration with
  | .number n => [line s!"cy.wait({n} * 1000);"]
  | v => [line s!"cy.wait(Number({Target.cypress.expression v}) * 1000);"]

/-- A pause. -/
def pause : Pause → List Line
  | .time duration => sleep duration
  | .unknown _ duration => sleep duration
  | .network route => [line s!"{await route};"]

/-- A folder without the mark of the current one at its front, however often it is
given. -/
def dropHere : List Char → List Char
  | '.' :: '/' :: cs => dropHere cs
  | cs => cs

/-- The path of a picture. -/
def picture (s : Screenshot) : String :=
  match dropHere s.folder.toList with
  | [] => s.filename
  | ['.'] => s.filename
  | cs => s!"{String.ofList cs}/{s.filename}"

/-- A picture of the page. -/
def screenshot (s : Screenshot) : List Line :=
  if s.counter then
    let path := JavaScript.interpolate [.text s!"{picture s}_", .expr "screenshotCounter"]
    [line "screenshotCounter += 1;", line s!"cy.screenshot({path});"]
  else [line s!"cy.screenshot({Text.quote (picture s)});"]

/-- A value for a variable. -/
def assign (a : Assignment) : List Line :=
  [line "cy.then(() => \x7b",
    below 1 s!"Cypress.env({Text.quote a.name}, {translate a.value});",
    line "\x7d);"]

/-- A rule for requests. -/
def intercept (i : Interception) : List Line :=
  let method := Text.quote i.method
  let pattern := Text.quote i.urlPattern
  let route := Text.quote i.route
  match i.mock with
  | some mock =>
      [line s!"cy.intercept({method}, {pattern}, \x7b",
        below 1 s!"statusCode: Number({translate mock.status}),",
        below 1 s!"body: {mock.json},",
        line s!"\x7d).as({route});"]
  | none => [line s!"cy.intercept({method}, {pattern}).as({route});"]

/-- Data read from a file into a variable. -/
def fixture (f : Fixture) : List Line :=
  [line s!"cy.fixture({translate f.path}).then((data) => \x7b",
    below 1 s!"Cypress.env({Text.quote f.name}, data);",
    line "\x7d);",
    log s!"Loaded fixture '{f.path}' into variable '{f.name}'"]

/-- A call of a routine. -/
def command (c : Command) : List Line :=
  let name := c.name.getD "myCommand"
  let arguments := ", ".intercalate (c.arguments.map translate)
  [line s!"cy.{name}({arguments});"]

/-- The code of an action.  A page element on its own is not code. -/
def action (site : Site) : Action → List Line
  | .session s => session site s
  | .element _ => []
  | .interact i => interact i site.element
  | .assertion a => assertion a site.element
  | .pause p => pause p
  | .screenshot s => screenshot s
  | .assign a => assign a
  | .intercept i => intercept i
  | .fixture f => fixture f
  | .command c => command c

end FlowSuite.Cypress
