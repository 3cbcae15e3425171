/-
Cypress: expressions and single lines.

A command finds an element by itself and retries until it is there; a question of a
branch or a loop looks once, in the body of the page as it is.  Paths go through a
command of their own, and so do links by their text, so a chain does not always start
with the same command.
-/
import FlowSuite.Layout.Line
import FlowSuite.Step.Basic
import FlowSuite.Target.Locator

namespace FlowSuite.Cypress

/-- The expression for a field text. -/
def translate (raw : String) : String :=
  Target.cypress.translate raw

/-- The expression for a field text, as a string. -/
def asText (raw : String) : String :=
  let v := Value.classify raw
  let e := Target.cypress.expression v
  if v.isString then e else s!"String({e})"

/-- The selector for an id; a mark that was given along is not doubled. -/
def idSelector : LocatorValue → String
  | .literal s => Text.quote (String.ofList ('#' :: s.toList.dropWhile (· == '#')))
  | v => v.between .cypress "#" ""

/-- The selector of an element, if it is found by one. -/
def selector? (e : Element) : Option String :=
  let value := LocatorValue.resolve e.value
  match e.strategy with
  | .id => some (idSelector value)
  | .css => some (value.expression .cypress)
  | .name => some (value.between .cypress "[name='" "']")
  | .xpath => none
  | .linkText => none

/-- The command that finds an element. -/
def query (e : Element) : String :=
  let value := (LocatorValue.resolve e.value).expression .cypress
  match selector? e, e.strategy with
  | some selector, _ => s!"cy.get({selector})"
  | none, .linkText => s!"cy.contains(\"a\", {value})"
  | none, _ => s!"cy.xpath({value})"

/-- A look at the page for an element, which may find none. -/
def look (e : Element) : String :=
  let value := (LocatorValue.resolve e.value).expression .cypress
  match selector? e, e.strategy with
  | some selector, _ => s!"$body.find({selector})"
  | none, .linkText =>
      s!"$body.find(\"a\").filter((_, a) => Cypress.$(a).text().includes({value}))"
  | none, _ =>
      s!"Cypress.$($body[0].ownerDocument.evaluate({value}, $body[0].ownerDocument, null, " ++
        "XPathResult.FIRST_ORDERED_NODE_TYPE, null).singleNodeValue)"

/-- The command that waits for a request. -/
def await (route : String) : String :=
  let name := Text.quote ("@" ++ route)
  s!"cy.wait({name})"

/-- A comment. -/
def note (text : String) : Line :=
  line (Target.cypress.comment text)

/-- A command that logs a fixed text. -/
def log (text : String) : Line :=
  line s!"cy.log({Text.quote text});"

end FlowSuite.Cypress
