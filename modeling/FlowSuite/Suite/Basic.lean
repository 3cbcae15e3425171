/-
Suites.

A suite is a list of test cases, each with the script that its entry point unfolds to.
The file of a suite is its cases, one after the other, between the lines that open and
close a file of the target.  Cases do not see each other: what a case says and what is
reported of it depends on its script only.
-/
import FlowSuite.Script.Print
import FlowSuite.Cypress.File
import FlowSuite.Selenium.File

namespace FlowSuite

/-! ### The frame of a file -/

namespace Target

/-- The file of a suite. -/
def fileName : Target → String → String
  | .selenium => Selenium.fileName
  | .cypress => Cypress.fileName

/-- The name of a test case, at a position in the suite. -/
def testName : Target → Option String → Nat → String
  | .selenium => Selenium.testName
  | .cypress => Cypress.testName

/-- The text before the test cases. -/
def prologue (t : Target) (suite : String) (cases : Nat) : String :=
  match t with
  | .selenium => Selenium.prologue suite cases
  | .cypress => Cypress.prologue suite

/-- How far down the steps of a test case stand. -/
def bodyLevel : Target → Nat
  | .selenium => Selenium.bodyLevel
  | .cypress => Cypress.bodyLevel

/-- A test case around its steps. -/
def testCase : Target → String → String → String
  | .selenium => Selenium.testCase
  | .cypress => Cypress.testCase

/-- The text after the test cases. -/
def epilogue : Target → String
  | .selenium => Selenium.epilogue
  | .cypress => Cypress.epilogue

end Target

/-! ### Cases -/

/-- A test case. -/
structure Case where
  name : String
  /-- The id of the entry point. -/
  entry : String
  script : Script
  deriving DecidableEq, Repr

namespace Case

/-- How many steps the case has; the places where it is cut short are none. -/
def steps (c : Case) : Nat := c.script.size

/-- The problems of the case. -/
def diagnostics (t : Target) (c : Case) : List Diagnostic := c.script.diagnostics t

/-- The steps of the case as they stand in the file. -/
def body (t : Target) (c : Case) : String := c.script.text t t.bodyLevel

/-- The case as it stands in the file. -/
def source (t : Target) (c : Case) : String := t.testCase c.name (c.body t)

end Case

/-- A suite of test cases. -/
structure Suite where
  target : Target
  name : String
  cases : List Case
  deriving DecidableEq, Repr

namespace Suite

/-- The text of the suite's file. -/
def source (s : Suite) : String :=
  s.target.prologue s.name s.cases.length
    ++ String.join (s.cases.map (Case.source s.target))
    ++ s.target.epilogue

/-- The problems of all cases. -/
def diagnostics (s : Suite) : List Diagnostic :=
  s.cases.flatMap (Case.diagnostics s.target)

/-- Whether there are no problems. -/
def isClean (s : Suite) : Bool := s.diagnostics.isEmpty

/-- The suite's file. -/
def fileName (s : Suite) : String := s.target.fileName s.name

end Suite

/-- A file with a suite of its own. -/
structure SuiteFile where
  name : String
  suite : Suite
  deriving DecidableEq, Repr

end FlowSuite
