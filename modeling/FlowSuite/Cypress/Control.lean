/-
Cypress: branches and loops.

The question of a branch is a chain of commands that yields its answer and cannot fail
the test; a branch whose question cannot be asked goes the way of a yes.  Commands are
queued, so a loop that watches an element cannot be a loop of the language: it is a
function that looks, runs the body, and queues itself again.
-/
import FlowSuite.Cypress.Action
import FlowSuite.Layout.Frame

namespace FlowSuite.Cypress

/-- A chain that looks for an element and yields the outcome of a test on it. -/
def inspect (e : Element) (test : String) : String :=
  s!"cy.get(\"body\").then(($body) => \x7b\n    const $el = {look e};\n    return {test};\n\x7d)"

/-- A chain that yields the answer to a question. -/
def answer : Question → String
  | .visible e => inspect e "$el.length > 0 && $el.is(\":visible\")"
  | .containsText e value =>
      inspect e s!"$el.length > 0 && $el.text().includes({asText value})"
  | .hasClass e value => inspect e s!"$el.hasClass({asText value})"
  | .propertyEquals e property value =>
      inspect e
        s!"$el.length > 0 && String($el.prop({Text.quote property})) === {asText value}"
  | .urlContains value => s!"cy.url().then((url) => url.includes({asText value}))"
  | .urlMatches pattern =>
      s!"cy.url().then((url) => new RegExp({Text.quote pattern}).test(url))"
  | .networkStatus route status =>
      s!"{await route}.then((interception) => " ++
        "interception.response !== undefined && " ++
        s!"interception.response.statusCode === Number({translate status}))"

/-- The lines before the chain of a branch, and the chain. -/
def inquiry (c : Check) (element : Option Element) : List Line × String :=
  match c.question element with
  | .error fault => ([note fault.reason], "cy.wrap(true)")
  | .ok q => ([], answer q)

/-- The lines around the arms of a branch. -/
def fork (c : Check) (element : Option Element) : Fork :=
  let (before, chain) := inquiry c element
  { opening :=
      [note s!"Condition Check: {c.condition.label}"] ++ before ++
        [line s!"{chain}.then((matched) => \x7b", below 1 "if (matched) \x7b"]
    between := [below 1 "\x7d else \x7b"]
    closing := [below 1 "\x7d", line "\x7d);"]
    depth := 2
    idle := "return;" }

/-- What is logged before a loop that counts. -/
def announcement (count : String) : Line :=
  let text :=
    JavaScript.interpolate [.text "Starting Loop (", .expr count, .text " iterations)"]
  line s!"cy.log({text});"

/-- The lines around the body of a loop that counts. -/
def countLoop (count : String) : Rounds :=
  { opening :=
      [announcement count,
        line s!"Cypress._.times(Number({count}), (i) => \x7b",
        below 1 "cy.log(`--- Loop Iteration $\x7bi + 1\x7d ---`);"]
    closing := [line "\x7d);"]
    depth := 1 }

/-- The function of a loop that watches an element. -/
def pollName (id : String) : String :=
  let suffix := Text.snake id
  if suffix.isEmpty then "repeatWhile" else s!"repeatWhile_{suffix}"

/-- The lines around the body of a loop that watches an element. -/
def watchLoop (id : String) (e : Element) : Rounds :=
  let poll := pollName id
  { opening :=
      [log "Starting While Loop",
        line s!"const {poll} = () => \x7b",
        below 1 "cy.get(\"body\").then(($body) => \x7b",
        below 2 "let visible = false;",
        below 2 "try \x7b",
        below 3 s!"const $el = {look e};",
        below 3 "visible = $el.length > 0 && $el.is(\":visible\");",
        below 2 "\x7d catch (error) \x7b",
        below 3 "visible = false;",
        below 2 "\x7d",
        below 2 "if (!visible) \x7b",
        below 3 "return;",
        below 2 "\x7d"]
    closing :=
      [below 2 s!"{poll}();", below 1 "\x7d);", line "\x7d;", line s!"{poll}();"]
    depth := 2 }

/-- The lines around the body of a loop. -/
def rounds (id : String) (l : Loop) (element : Option Element) : Rounds :=
  let frame := match l.mode, element with
    | .whileVisible, some e => watchLoop id e
    | .whileVisible, none =>
        ⟨[note "Warning: While loop has no element connected, loop skipped"], [], 1⟩
    | _, _ => countLoop (translate l.count)
  { frame with closing := frame.closing ++ [log "Loop Finished"] }

end FlowSuite.Cypress
