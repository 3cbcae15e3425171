/-
Cypress: names and files.

A suite is a `describe` block with one `context` per test case, which cleans the
session up after its test.  The suite keeps book of how its tests end and logs a
summary at its end.
-/
import FlowSuite.Layout.Line
import FlowSuite.Text.Blank
import FlowSuite.Text.Quoted
import FlowSuite.Text.Words

namespace FlowSuite.Cypress

/-- The file of a suite. -/
def fileName (stem : String) : String :=
  let name := Text.snake stem
  if name.isEmpty then "suite.cy.js" else s!"{name}.cy.js"

/-- The title of a test case, at a position in the suite. -/
def testName (title : Option String) (position : Nat) : String :=
  let name := (title.map fun s => Text.trim (Text.oneLine s)).getD ""
  if name.isEmpty then s!"test_case_{position}" else name

/-- The lines before the suite. -/
def header : List Line :=
  [line "/// <reference types=\"cypress\" />",
    line "// XPath locators use the cypress-xpath plugin.",
    line "",
    line "function checked(message, verbose, check) \x7b",
    below 1 "try \x7b",
    below 2 "check();",
    below 2 "if (verbose) \x7b",
    below 3 "Cypress.log(\x7b name: \"pass\", message \x7d);",
    below 2 "\x7d",
    below 1 "\x7d catch (error) \x7b",
    below 2 "Cypress.log(\x7b name: \"fail\", message \x7d);",
    below 2 "throw error;",
    below 1 "\x7d",
    line "\x7d",
    line ""]

/-- The lines of the suite before its test cases. -/
def suiteHead (suite : String) : List Line :=
  [line s!"describe({Text.quote suite}, () => \x7b",
    below 1 "const results = [];",
    below 1 "let started = 0;",
    line "",
    below 1 "beforeEach(() => \x7b",
    below 2 "started = Date.now();",
    below 1 "\x7d);",
    line "",
    below 1 "afterEach(function () \x7b",
    below 2 "results.push(\x7b",
    below 3 "name: this.currentTest.title,",
    below 3 "passed: this.currentTest.state === \"passed\",",
    below 3 "elapsed: (Date.now() - started) / 1000,",
    below 2 "\x7d);",
    below 1 "\x7d);"]

/-- The text before the test cases. -/
def prologue (suite : String) : String :=
  Line.renderAll 0 (header ++ suiteHead suite)

/-- How far down the steps of a test case stand. -/
def bodyLevel : Nat := 3

/-- A test case around its steps. -/
def testCase (name body : String) : String :=
  let quoted := Text.quote name
  let started := Text.quote s!"Starting Test Case: {name}"
  let sheet : Sheet := { level := 1 }
  (((sheet.write
    [line "",
      line s!"context({quoted}, () => \x7b",
      below 1 "afterEach(() => \x7b",
      below 2 "cy.log(\"Test finished. Cleaning up session.\");",
      below 2 "cy.clearCookies();",
      below 2 "cy.clearLocalStorage();",
      below 1 "\x7d);",
      line "",
      below 1 s!"it({quoted}, () => \x7b",
      below 2 s!"cy.log({started});",
      below 2 "let screenshotCounter = 0;"]).paste body).write
    [below 1 "\x7d);",
      line "\x7d);"]).text

/-- The text after the test cases. -/
def epilogue : String :=
  Line.renderAll 0
    [line "",
      below 1 "after(() => \x7b",
      below 2 "const passed = results.filter((r) => r.passed).length;",
      below 2 "const failed = results.length - passed;",
      below 2 "const total = results.reduce((sum, r) => sum + r.elapsed, 0);",
      below 2 ("cy.log(`Summary: $\x7bpassed\x7d passed, $\x7bfailed\x7d failed, " ++
        "$\x7btotal.toFixed(2)\x7ds total`);"),
      below 2 "results.forEach((r) => \x7b",
      below 3 ("cy.log(`$\x7br.passed ? \"PASS\" : \"FAIL\"\x7d $\x7br.name\x7d " ++
        "($\x7br.elapsed.toFixed(2)\x7ds)`);"),
      below 2 "\x7d);",
      below 1 "\x7d);",
      line "\x7d);"]

end FlowSuite.Cypress
